import TagTemplate.Proofs.Document.Outlining
import TagTemplate.Proofs.Document.Rendering
import TagTemplate.Proofs.Text.Lines
import TagTemplate.Proofs.Text.Quoting

/-!
# The lines of an outline

An outline is meant to have a line for each node, in source order and indented by the level of the
node (`Node.inSourceOrder`). Each node does have an entry of its own with a line feed at its end,
and texts are quoted, so that their line breaks do not show. Strings are not quoted in that way.
They are written as in a template, where a line break stands for itself, and so the entry of a node
with a string that has a line break in it is more than one line.

There is no other way for line feeds to get into an entry, names and numbers having none, so they
can be counted: one for each entry, and those in the strings of the document
(`Document.WellFormed.sum_lineFeeds_entries`). Hence an outline is as it is meant to be if and only
if there is no line feed in any string.
-/

namespace TagTemplate

/-! ## Line feeds in elements -/

theorem count_lineFeed_escape (cs : List Char) :
    (Escaping.quotedText.escape cs).count '\n' = cs.count '\n' := by
  rw [Escaping.escape, List.count_flatMap]
  induction cs with
  | nil => rfl
  | cons c cs ih =>
    have hc : (List.count '\n' ∘
        fun c ↦ if Escaping.quotedText.escapable c then ['\\', c] else [c]) c
          = List.count '\n' [c] := by
      rw [Function.comp_apply]
      split
      · exact List.count_cons_of_ne (by decide)
      · rfl
    rw [List.map_cons, List.sum_cons, ih, hc, ← List.count_append, List.singleton_append]

namespace Element

/-- How many line feeds there are in an element, if it is a string. -/
def stringLineFeeds : Element → ℕ
  | string content => lineFeeds content
  | integer _ | double _ | variableName _ | functionName _ | operator _ => 0

theorem stringLineFeeds_eq_zero_iff {e : Element} :
    e.stringLineFeeds = 0 ↔ ∀ content, e = string content → '\n' ∉ content.toList := by
  cases e with
  | string content =>
    rw [stringLineFeeds, lineFeeds_eq_zero_iff]
    exact ⟨fun h _ heq ↦ string.inj heq ▸ h, fun h ↦ h content rfl⟩
  | _ => exact iff_of_true rfl nofun

theorem lineFeed_notMem_of_isName {name : List Char} (h : IsName name) : '\n' ∉ name := fun hmem ↦
  absurd (h.isNameChar _ hmem) (by decide)

theorem WellFormed.lineFeeds_text {e : Element} (he : e.WellFormed) :
    lineFeeds e.text = e.stringLineFeeds := by
  have hspelled := he.spelled_text
  cases e with
  | string content =>
    have hquote : List.count '\n' ['"'] = 0 := by decide
    rw [text, lineFeeds, String.toList_ofList, List.count_append, List.count_append,
      count_lineFeed_escape, hquote, Nat.zero_add, Nat.add_zero]
    rfl
  | integer _ | double _ =>
    cases hspelled with
    | number hwritten _ =>
      exact lineFeeds_eq_zero_iff.mpr fun hmem ↦
        absurd (hwritten.isNumeralChar _ hmem) (by decide)
  | variableName _ =>
    cases he with
    | variableName hname => exact lineFeeds_eq_zero_iff.mpr (lineFeed_notMem_of_isName hname)
  | functionName name =>
    cases he with
    | functionName hname =>
      rw [text, lineFeeds_append, lineFeeds_eq_zero_iff.mpr (lineFeed_notMem_of_isName hname)]
      rfl
  | operator op => cases op <;> decide

theorem WellFormed.lineFeeds_description {e : Element} (he : e.WellFormed) :
    lineFeeds e.description = e.stringLineFeeds := by
  have hkind : lineFeeds e.kindName = 0 := by cases e <;> rw [kindName] <;> decide
  have hopen : lineFeeds "(" = 0 := by decide
  have hclose : lineFeeds ")" = 0 := by decide
  rw [description, lineFeeds_append, lineFeeds_append, lineFeeds_append, he.lineFeeds_text, hkind,
    hopen, hclose, Nat.zero_add, Nat.add_zero]

theorem lineFeeds_descriptions {es : List Element} (hes : ∀ e ∈ es, e.WellFormed) :
    lineFeeds (" ".intercalate (es.map description)) = (es.map stringLineFeeds).sum := by
  rw [lineFeeds_intercalate_space, List.map_map]
  exact congrArg List.sum (List.map_congr_left fun e he ↦ (hes e he).lineFeeds_description)

end Element

/-! ## Entries -/

namespace Node

/-- An outline is the entries of the nodes in source order. -/
theorem outlining_eq_join (level : ℕ) (nodes : List Node) :
    outlining level nodes
      = String.join (((inSourceOrder level nodes).map entry).map (· ++ "\n")) := by
  induction nodes using Node.induction generalizing level with
  | nil =>
    rw [outlining, inSourceOrder]
    rfl
  | text content nodes ih | echo elements nodes ih =>
    rw [outlining, inSourceOrder, List.map_cons, List.map_cons, String.join_cons, ih]
  | loop header children nodes ihchildren ih =>
    rw [outlining, inSourceOrder, List.map_cons, List.map_cons, String.join_cons, List.map_append,
      List.map_append, String.join_append, ihchildren, ih]

theorem lineFeeds_entry (level : ℕ) (node : Node) :
    lineFeeds (entry (level, node)) = lineFeeds node.headline := by
  have hindent : '\n' ∉ (String.ofList (List.replicate (2 * level) ' ')).toList := by
    rw [String.toList_ofList]
    intro hmem
    exact absurd (List.eq_of_mem_replicate hmem) (by decide)
  rw [entry, lineFeeds_append, lineFeeds_eq_zero_iff.mpr hindent, Nat.zero_add]

theorem lineFeeds_headline_loop {header : LoopHeader} (h : header.WellFormed)
    (children : List Node) :
    lineFeeds (headline (.loop header children))
      = (header.bounds.map Element.stringLineFeeds).sum := by
  have hcounter : Element.WellFormed (.variableName header.counter) := .variableName h.counter
  have hfor : lineFeeds "For " = 0 := by decide
  have hspace : lineFeeds " " = 0 := by decide
  rw [headline, lineFeeds_append, lineFeeds_append, lineFeeds_append,
    Element.lineFeeds_descriptions h.bounds, hcounter.lineFeeds_description, hfor, hspace]
  exact Nat.zero_add _

theorem WellFormed.sum_lineFeeds {nodes : List Node} (h : WellFormed nodes) (level : ℕ) :
    (((inSourceOrder level nodes).map entry).map lineFeeds).sum
      = ((elements nodes).map Element.stringLineFeeds).sum := by
  induction h generalizing level with
  | nil => rw [inSourceOrder, elements]; rfl
  | @text content nodes _ _ _ ih =>
    have hquoted := lineFeeds_eq_zero_iff.mpr (Quoted.lineFeed_notMem_quote content)
    have hheadline : lineFeeds (headline (.text content)) = 0 := by
      rw [headline, lineFeeds_append, hquoted]
      rfl
    rw [inSourceOrder, elements, List.map_cons, List.map_cons, List.sum_cons, ih, lineFeeds_entry,
      hheadline, Nat.zero_add]
  | @echo es nodes _ hes _ ih =>
    have hheadline : lineFeeds (headline (.echo es)) = (es.map Element.stringLineFeeds).sum := by
      rw [headline, lineFeeds_append, Element.lineFeeds_descriptions hes]
      exact Nat.zero_add _
    rw [inSourceOrder, elements, List.map_cons, List.map_cons, List.sum_cons, ih, lineFeeds_entry,
      hheadline, List.map_append, List.sum_append]
  | loop hheader _ _ ihchildren ih =>
    rw [inSourceOrder, elements, List.map_cons, List.map_cons, List.sum_cons, List.map_append,
      List.map_append, List.sum_append, ihchildren, ih, lineFeeds_entry,
      lineFeeds_headline_loop hheader, List.map_append, List.map_append, List.sum_append,
      List.sum_append, Nat.add_assoc]

end Node

/-! ## Whole outlines -/

/-- The entries of an outline: one for the document, and one for each node, children of the document
being at level 1. -/
def Document.entries (doc : Document) : List String :=
  "Document" :: (Node.inSourceOrder 1 doc.children).map Node.entry

/-- How many line feeds there are in the strings of a document. -/
def Document.stringLineFeeds (doc : Document) : ℕ :=
  ((Node.elements doc.children).map Element.stringLineFeeds).sum

namespace Document

variable {doc : Document}

theorem outline_eq_join (doc : Document) :
    doc.outline = .ok (String.join (doc.entries.map (· ++ "\n"))) := by
  rw [outline_eq, Node.outlining_eq_join, entries, List.map_cons, String.join_cons]
  rfl

theorem WellFormed.sum_lineFeeds_entries (h : doc.WellFormed) :
    (doc.entries.map lineFeeds).sum = doc.stringLineFeeds := by
  have hdocument : lineFeeds "Document" = 0 := by decide
  have hnodes := Node.WellFormed.sum_lineFeeds h 1
  rw [entries, List.map_cons, List.sum_cons, hdocument, hnodes, Nat.zero_add, stringLineFeeds]

theorem stringLineFeeds_eq_zero_iff : doc.stringLineFeeds = 0 ↔
    ∀ content, .string content ∈ Node.elements doc.children → '\n' ∉ content.toList := by
  rw [stringLineFeeds, List.sum_eq_zero_iff, List.forall_mem_map]
  constructor
  · intro h content hmem
    exact Element.stringLineFeeds_eq_zero_iff.mp (h _ hmem) content rfl
  · intro h e he
    refine Element.stringLineFeeds_eq_zero_iff.mpr ?_
    rintro content rfl
    exact h content he

end Document

/-- **Lines.** A document that has been read has an outline, in which there is one entry for the
document and one for each node in source order, with two spaces before it for each level. The
outline has as many line feeds as entries, and those in the strings of the document besides. So its
entries are its lines if and only if there is no line feed in any string. -/
theorem outline_has_one_line_per_node_iff {source : String} {doc : Document}
    (h : Document.parse source = .ok doc) :
    ∃ text, doc.outline = .ok text ∧
      text = String.join (doc.entries.map (· ++ "\n")) ∧
      lineFeeds text = 1 + (Node.inSourceOrder 1 doc.children).length + doc.stringLineFeeds ∧
      (ConsistsOfLines text doc.entries ↔
        ∀ content, .string content ∈ Node.elements doc.children → '\n' ∉ content.toList) := by
  have hentries := (Document.wellFormed_of_parse h).sum_lineFeeds_entries
  refine ⟨_, doc.outline_eq_join, rfl, ?_, ?_⟩
  · rw [lineFeeds_join_lines, hentries, Document.entries, List.length_cons, List.length_map,
      Nat.add_comm 1]
  · rw [consistsOfLines_join_iff, hentries, Document.stringLineFeeds_eq_zero_iff]

/-- A text with a line break, and a loop within a loop. -/
def nestedLoops : Document where
  children := [.text "a\n", .loop ⟨"i", .integer 1, .integer 2, none⟩
    [.loop ⟨"j", .string "x", .integer 2, none⟩ []]]

/-- The line break of the text does not show, and each loop is one level further in. -/
theorem outline_of_nestedLoops :
    Document.parse "a\n\x7b$for i 1 2$\x7d\x7b$For j \"x\" 2$\x7d\x7b$END$\x7d\x7b$END$\x7d"
      = .ok nestedLoops ∧
    ∃ text, nestedLoops.outline = .ok text ∧ ConsistsOfLines text
      ["Document", "  Text \"a\\n\"", "  For Variable(i) Integer(1) Integer(2)",
        "    For Variable(j) String(\"x\") Integer(2)"] := by
  have hparse : Document.parse
      "a\n\x7b$for i 1 2$\x7d\x7b$For j \"x\" 2$\x7d\x7b$END$\x7d\x7b$END$\x7d"
        = .ok nestedLoops := by
    decide +kernel
  have hentries : nestedLoops.entries = ["Document", "  Text \"a\\n\"",
      "  For Variable(i) Integer(1) Integer(2)",
      "    For Variable(j) String(\"x\") Integer(2)"] := by
    simp only [nestedLoops, Document.entries, Node.inSourceOrder]
    decide +kernel
  have helements : Node.elements nestedLoops.children
      = [.integer 1, .integer 2, .string "x", .integer 2] := by
    simp [nestedLoops, Node.elements, LoopHeader.bounds]
  obtain ⟨text, houtline, -, -, hlines⟩ := outline_has_one_line_per_node_iff hparse
  rw [hentries, helements] at hlines
  refine ⟨hparse, text, houtline, hlines.mpr fun content hmem ↦ ?_⟩
  obtain rfl : content = "x" := by simpa using hmem
  decide

/-- A line break in a string makes two lines of one entry. -/
theorem outline_of_broken_string :
    Document.parse "\x7b$=\"a\nb\"$\x7d" = .ok ⟨[.echo [.string "a\nb"]]⟩ ∧
    Document.outline ⟨[.echo [.string "a\nb"]]⟩ = .ok "Document\n  Echo String(\"a\nb\")\n" ∧
    (Node.inSourceOrder 1 [.echo [.string "a\nb"]]).length = 1 ∧
    lineFeeds "Document\n  Echo String(\"a\nb\")\n" = 3 := by
  have hparse : Document.parse "\x7b$=\"a\nb\"$\x7d" = .ok ⟨[.echo [.string "a\nb"]]⟩ := by
    decide +kernel
  refine ⟨hparse, by decide +kernel, ?_, ?_⟩
  · rw [Node.inSourceOrder, Node.inSourceOrder]
    rfl
  · decide

end TagTemplate
