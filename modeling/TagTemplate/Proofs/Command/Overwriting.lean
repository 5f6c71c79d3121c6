import TagTemplate.FileStore
import TagTemplate.Proofs.Command.Agreement
import TagTemplate.Proofs.Document.WellFormed

/-!
# Files that are overwritten

The one command that changes a file formats it in place. Writing to a file leaves every path
leading where it led, because a file is still a file afterwards (`FileStore.resolve?_write`), and
so it changes what is found at the paths to this file and at no other (`FileStore.find_write`).

All that can go wrong goes wrong before anything is written. And what is written is read as the same
document, which is why the file can be formatted once more without effect and its outline stays the
same.
-/

namespace TagTemplate

variable {store : FileStore} {path : String} {names : List String} {bytes : ByteArray}

/-! ## Writing to a file -/

private theorem lookup_map_snd {α β γ : Type} [BEq α] [LawfulBEq α] (f : α → β → γ)
    (entries : List (α × β)) (key : α) :
    (entries.map fun entry ↦ (entry.1, f entry.1 entry.2)).lookup key
      = (entries.lookup key).map (f key) := by
  induction entries with
  | nil => rfl
  | cons entry entries ih =>
    obtain ⟨first, entry⟩ := entry
    rw [List.map_cons, List.lookup_cons, List.lookup_cons, ih]
    cases hkey : key == first with
    | true =>
      obtain rfl := eq_of_beq hkey
      rfl
    | false => rfl

namespace FileStore

theorem exists_resolve?_of_find (h : store.find path = .file bytes) :
    ∃ names, store.resolve? path = some names ∧ store.entryAt? names = some (.file bytes) := by
  rw [find] at h
  split at h
  · contradiction
  · contradiction
  · rename_i hentry
    obtain ⟨names, hnames, hentry⟩ := Option.bind_eq_some_iff.mp hentry
    exact ⟨names, hnames, by rw [hentry, Found.file.inj h]⟩

section Writing

variable (text : String) (hpath : store.resolve? path = some names)

include hpath

private theorem lookup_write (key : List String) :
    (store.write path text).entries.lookup key = (store.entries.lookup key).map fun entry ↦
      if key = names then .file text.toUTF8 else entry := by
  have hentries : (store.write path text).entries = store.entries.map fun entry ↦
      (entry.1, if entry.1 = names then .file text.toUTF8 else entry.2) := by
    rw [write, hpath]
    refine List.map_congr_left fun entry _ ↦ ?_
    dsimp only
    split <;> rfl
  have hlookup := lookup_map_snd
    (fun key entry ↦ if key = names then StoredEntry.file text.toUTF8 else entry) store.entries key
  rw [hentries, hlookup]

variable (hfile : store.entryAt? names = some (.file bytes))

include hfile

theorem entryAt?_write (key : List String) : (store.write path text).entryAt? key =
    if key = names then some (.file text.toUTF8) else store.entryAt? key := by
  rw [entryAt?, lookup_write text hpath]
  by_cases hkey : key = names
  · -- The root is a directory, so it is not the file that is written to.
    have hroot : key ≠ [] := by
      rintro rfl
      rw [← hkey, entryAt?, if_pos rfl] at hfile
      cases hfile
    rw [← hkey, entryAt?, if_neg hroot] at hfile
    rw [if_neg hroot, hfile, Option.map_some, if_pos hkey, if_pos hkey]
  · simp only [entryAt?, if_neg hkey, Option.map_id']

theorem resolve?_write (other : String) :
    (store.write path text).resolve? other = store.resolve? other := by
  have hentry := entryAt?_write text hpath hfile
  have hdirectory (key : List String) :
      (store.write path text).isDirectory key = store.isDirectory key := by
    rw [isDirectory, isDirectory, hentry]
    by_cases hkey : key = names
    · rw [if_pos hkey, hkey, hfile]
    · rw [if_neg hkey]
  have hsome (key : List String) :
      ((store.write path text).entryAt? key).isSome = (store.entryAt? key).isSome := by
    rw [hentry]
    by_cases hkey : key = names
    · rw [if_pos hkey, hkey, hfile]
      rfl
    · rw [if_neg hkey]
  have hfollow : (store.write path text).follow? = store.follow? := by
    funext key name
    rw [follow?, follow?, hdirectory, child?, child?, hsome]
  have hstart : (store.write path text).workingDirectory = store.workingDirectory := by
    rw [write, hpath]
  rw [resolve?, resolve?, hfollow, hstart]

/-- Writing changes what is found at the paths that lead to the file, and at no others. -/
theorem find_write (other : String) : (store.write path text).find other =
    if store.resolve? other = store.resolve? path then .file text.toUTF8
    else store.find other := by
  rw [find, find, resolve?_write text hpath hfile, hpath]
  cases hother : store.resolve? other with
  | none => rfl
  | some key =>
    rw [Option.bind_some, Option.bind_some, entryAt?_write text hpath hfile]
    by_cases hkey : key = names
    · rw [if_pos hkey, if_pos (congrArg some hkey)]
    · rw [if_neg hkey, if_neg fun h ↦ hkey (Option.some_inj.mp h)]

theorem write_write : (store.write path text).write path text = store.write path text := by
  have hagain : (store.write path text).resolve? path = some names := by
    rw [resolve?_write text hpath hfile, hpath]
  rw [write, hagain, write, hpath]
  dsimp only
  rw [List.map_map]
  refine congrArg (FileStore.mk · _) (List.map_congr_left fun entry _ ↦ ?_)
  by_cases hkey : entry.1 = names <;> simp [hkey]

end Writing

theorem find_ne_unreadable (store : FileStore) (path reason : String) :
    store.find path ≠ .unreadable reason := by
  rw [find]
  split <;> exact nofun

end FileStore

/-! ## What is read -/

theorem eq_toUTF8_of_fromUTF8? {bytes : ByteArray} {source : String}
    (h : String.fromUTF8? bytes = some source) : bytes = source.toUTF8 := by
  rw [String.fromUTF8?] at h
  split at h
  · obtain rfl := Option.some_inj.mp h
    rfl
  · contradiction

/-- Whether no document can be read from what is found, and why. -/
inductive Found.LacksDocument : Found → FileError → Prop
  /-- There is nothing. -/
  | missing : LacksDocument .missing .missing
  /-- There is a directory. -/
  | directory : LacksDocument .directory (.unreadable "Is a directory (os error 21)")
  /-- There is a file, but no text in it. -/
  | noText {bytes : ByteArray} : String.fromUTF8? bytes = none →
    LacksDocument (.file bytes) (.unreadable "stream did not contain valid UTF-8")
  /-- There is a text, but it is no document, be it for its tokens or for something else. -/
  | noDocument {source : String} {e : ParseError} : Document.parse source = .error e →
    LacksDocument (.file source.toUTF8) (.source (.parse e))

theorem Found.LacksDocument.parse_ne_ok {source : String} {e : FileError}
    (h : (Found.file source.toUTF8).LacksDocument e) (doc : Document) :
    Document.parse source ≠ .ok doc := by
  generalize hbytes : source.toUTF8 = bytes at h
  cases h with
  | noText hnone =>
    have htext := Found.source_file_toUTF8 source
    rw [hbytes, Found.source, hnone] at htext
    contradiction
  | @noDocument other _ hother =>
    obtain rfl : source = other := String.toByteArray_inj.mp hbytes
    rw [hother]
    rintro ⟨⟩

theorem FileStore.lacksDocument_or_exists_parse (store : FileStore) (path : String) :
    (∃ e, (store.find path).LacksDocument e) ∨ ∃ (source : String) (doc : Document),
      store.find path = .file source.toUTF8 ∧ Document.parse source = .ok doc := by
  cases hfound : store.find path with
  | missing => exact Or.inl ⟨_, .missing⟩
  | directory => exact Or.inl ⟨_, .directory⟩
  | unreadable reason => exact absurd hfound (store.find_ne_unreadable path reason)
  | file bytes =>
    cases hbytes : String.fromUTF8? bytes with
    | none => exact Or.inl ⟨_, .noText hbytes⟩
    | some source =>
      obtain rfl := eq_toUTF8_of_fromUTF8? hbytes
      cases hparse : Document.parse source with
      | error e => exact Or.inl ⟨_, .noDocument hparse⟩
      | ok doc => exact Or.inr ⟨source, doc, rfl, hparse⟩

/-! ## Commands that change nothing -/

private theorem Report.replacement_ofSource {α : Type} (work : String → Except SourceError α)
    {make : α → Report} (h : ∀ result, (make result).replacement = none) (path : String)
    (found : Found) :
    (ofSource path found fun source ↦ do return make (← work source)).replacement = none := by
  cases hsource : found.source with
  | error e =>
    rw [ofSource_of_error path hsource]
    rfl
  | ok source =>
    rw [ofSource_of_ok path hsource]
    cases work source with
    | error e => rfl
    | ok result => exact h result

theorem Command.replacement_eq_none {command : Command}
    (h : ∀ path, command ≠ .format path true) (found : Found) :
    (command.report found).replacement = none := by
  cases command with
  | check path => exact Report.replacement_ofSource Source.check (fun _ ↦ rfl) path found
  | format path overwrite =>
    cases overwrite with
    | false => exact Report.replacement_ofSource Source.format (fun _ ↦ rfl) path found
    | true => exact absurd rfl (h path)
  | tokens path =>
    exact Report.replacement_ofSource (Source.tokenLines "\t") (fun _ ↦ rfl) path found
  | tree path => exact Report.replacement_ofSource Source.outline (fun _ ↦ rfl) path found
  | version => rfl

namespace FileStore

theorem run_eq_self {command : Command} (h : ∀ path, command ≠ .format path true)
    (store : FileStore) : store.run command = store := by
  rw [run, report, Command.replacement_eq_none h]
  cases command.path? <;> rfl

theorem report_eq {command : Command} (h : command.path? = some path) (store : FileStore) :
    store.report command = command.report (store.find path) := by
  rw [report, h]
  rfl

/-! ## Overwriting -/

theorem overwrite_of_lacksDocument {e : FileError} (h : (store.find path).LacksDocument e) :
    store.report (.format path true) = .failure path e ∧ store.run (.format path true) = store := by
  have hreport : store.report (.format path true) = .failure path e := by
    rw [report_eq rfl]
    generalize store.find path = found at h
    cases h with
    | missing => exact Command.report_overwrite_of_error path rfl
    | directory => exact Command.report_overwrite_of_error path rfl
    | noText hbytes =>
      refine Command.report_overwrite_of_error path ?_
      rw [Found.source, hbytes]
    | noDocument hparse => rw [Command.report_overwrite, hparse]
  refine ⟨hreport, ?_⟩
  rw [run, hreport]
  rfl

variable {source text : String} {doc : Document}

theorem overwrite_of_parse (hfind : store.find path = .file source.toUTF8)
    (hparse : Document.parse source = .ok doc) (htext : doc.render = .ok text) :
    store.report (.format path true)
        = { notes := "Wrote: " ++ path ++ "\n", replacement := some text } ∧
      store.run (.format path true) = store.write path text := by
  have hreport : store.report (.format path true)
      = { notes := "Wrote: " ++ path ++ "\n", replacement := some text } := by
    rw [doc.render_eq] at htext
    rw [report_eq rfl, hfind, Command.report_overwrite, hparse, ← Except.ok.inj htext]
  refine ⟨hreport, ?_⟩
  rw [run, hreport]
  rfl

end FileStore

/-- **Overwriting.** When a file is to be overwritten with its normal form either nothing happens,
because there is no document in a file to read, or the file is overwritten and nothing else. In that
case it still checks, its outline is the same, and to overwrite it once more succeeds and changes
nothing. No other command changes anything. -/
theorem overwriting_keeps_document (store : FileStore) :
    (∀ path,
      (∃ e, (store.find path).LacksDocument e ∧
        store.report (.format path true) = { code := 1, notes := e.message path ++ "\n" } ∧
        store.run (.format path true) = store) ∨
      ∃ source doc text after, store.find path = .file source.toUTF8 ∧
        Document.parse source = .ok doc ∧ doc.render = .ok text ∧
        (store.report (.format path true)).code = 0 ∧ store.run (.format path true) = after ∧
        after.workingDirectory = store.workingDirectory ∧
        (∀ names, after.entryAt? names =
          if store.resolve? path = some names then some (.file text.toUTF8)
          else store.entryAt? names) ∧
        (∀ other, after.find other =
          if store.resolve? other = store.resolve? path then .file text.toUTF8
          else store.find other) ∧
        (after.report (.check path)).code = 0 ∧
        (after.report (.tree path)).code = 0 ∧
        after.report (.tree path) = store.report (.tree path) ∧
        (after.report (.format path true)).code = 0 ∧ after.run (.format path true) = after) ∧
    ∀ command, (∀ path, command ≠ .format path true) → store.run command = store := by
  refine ⟨fun path ↦ ?_, fun command hcommand ↦ store.run_eq_self hcommand⟩
  rcases store.lacksDocument_or_exists_parse path with ⟨e, hlacks⟩ | ⟨source, doc, hfind, hparse⟩
  · obtain ⟨hreport, hrun⟩ := FileStore.overwrite_of_lacksDocument hlacks
    exact Or.inl ⟨e, hlacks, hreport, hrun⟩
  obtain ⟨text, htext, hagain⟩ := (Document.wellFormed_of_parse hparse).parse_render
  obtain ⟨hreport, hrun⟩ := FileStore.overwrite_of_parse hfind hparse htext
  obtain ⟨names, hpath, hfile⟩ := FileStore.exists_resolve?_of_find hfind
  have hother := FileStore.find_write text hpath hfile
  -- What has been written is found, and it is read as the same document.
  have hafter : (store.write path text).find path = .file text.toUTF8 := by
    rw [hother, if_pos rfl]
  obtain ⟨hreport', hrun'⟩ := FileStore.overwrite_of_parse hafter hagain htext
  refine Or.inr ⟨source, doc, text, store.write path text, hfind, hparse, htext, ?_, hrun, ?_,
    fun key ↦ ?_, hother, ?_, ?_, ?_, ?_, ?_⟩
  · rw [hreport]
  · rw [FileStore.write, hpath]
  · rw [FileStore.entryAt?_write text hpath hfile, hpath]
    by_cases hkey : key = names
    · rw [if_pos hkey, if_pos (congrArg some hkey.symm)]
    · rw [if_neg hkey, if_neg fun h ↦ hkey (Option.some_inj.mp h).symm]
  · rw [FileStore.report_eq rfl, hafter, Command.report_check, hagain]
  · rw [FileStore.report_eq rfl, hafter, Command.report_tree, hagain]
  · rw [FileStore.report_eq rfl, FileStore.report_eq rfl, hafter, hfind, Command.report_tree,
      Command.report_tree, hagain, hparse]
  · rw [hreport']
  · rw [hrun', FileStore.write_write text hpath hfile]

/-- A loop in small letters in the working directory, and a file outside of it. -/
def smallLetters : FileStore where
  entries := [(["templates"], .directory),
    (["templates", "loop"], .file "\x7b$for i 1 2$\x7d\x7b$end$\x7d".toUTF8),
    (["notes"], .file "none".toUTF8)]
  workingDirectory := ["templates"]

/-- The file is overwritten by one path and found by another; the other file is not touched. -/
theorem overwriting_of_smallLetters :
    let after := smallLetters.run (.format "../templates/loop" true)
    after.find "/templates/loop" = .file "\x7b$FOR i 1 2$\x7d\x7b$END$\x7d".toUTF8 ∧
      after.find "../notes" = .file "none".toUTF8 ∧ after.run (.check "loop") = after := by
  intro after
  have hfind : smallLetters.find "../templates/loop"
      = .file "\x7b$for i 1 2$\x7d\x7b$end$\x7d".toUTF8 := rfl
  have hparse : Document.parse "\x7b$for i 1 2$\x7d\x7b$end$\x7d"
      = .ok ⟨[.loop ⟨"i", .integer 1, .integer 2, none⟩ []]⟩ := by
    decide +kernel
  have hrender : Document.render ⟨[.loop ⟨"i", .integer 1, .integer 2, none⟩ []]⟩
      = .ok "\x7b$FOR i 1 2$\x7d\x7b$END$\x7d" := by
    decide +kernel
  obtain ⟨hoverwrite, -⟩ := overwriting_keeps_document smallLetters
  obtain ⟨-, hothers⟩ := overwriting_keeps_document after
  have hcheck : after.run (.check "loop") = after := hothers _ nofun
  rcases hoverwrite "../templates/loop" with ⟨e, hlacks, -⟩ |
    ⟨source, doc, text, _, hsource, hdoc, htext, -, rfl, -, -, hother, -⟩
  · rw [hfind] at hlacks
    exact absurd hparse (hlacks.parse_ne_ok _)
  obtain rfl := String.toByteArray_inj.mp (Found.file.inj (hfind.symm.trans hsource))
  obtain rfl := Except.ok.inj (hparse.symm.trans hdoc)
  obtain rfl := Except.ok.inj (hrender.symm.trans htext)
  exact ⟨(hother _).trans (if_pos rfl), (hother _).trans (if_neg (by decide)), hcheck⟩

end TagTemplate
