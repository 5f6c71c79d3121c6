import TagTemplate.Command
import TagTemplate.Proofs.Document.Outlining
import TagTemplate.Proofs.Document.Rendering

/-!
# Every way to ask gives the same answer

A source can be handed over as a text, or it can be in a file that a command works on. Either way it
is read first, and what comes after reading cannot fail: a document can always be written and always
has an outline. So whether there is a result, and what is reported if there is none, is decided by
reading alone, and it is the same for checking, formatting and outlining.

Listing tokens is different, since it takes a source apart without reading a document. But a source
that is read as a document has tokens, so the tokens are listed whenever the source checks.
-/

namespace TagTemplate

/-! ## Sources -/

namespace Source

theorem format_eq (source : String) : format source =
    match Document.parse source with
    | .error e => .error (.parse e)
    | .ok doc => .ok (String.ofList (Node.rendering doc.children)) := by
  rw [format]
  cases Document.parse source with
  | error e => rfl
  | ok doc => exact congrArg (Except.mapError SourceError.walk) doc.render_eq

theorem check_eq (source : String) : check source =
    match Document.parse source with
    | .error e => .error (.parse e)
    | .ok _ => .ok () := by
  rw [check, format_eq]
  cases Document.parse source <;> rfl

theorem outline_eq (source : String) : outline source =
    match Document.parse source with
    | .error e => .error (.parse e)
    | .ok doc => .ok ("Document\n" ++ Node.outlining 1 doc.children) := by
  rw [outline]
  cases Document.parse source with
  | error e => rfl
  | ok doc => exact congrArg (Except.mapError SourceError.walk) doc.outline_eq

theorem tokenLine_eq (gap : String) (token : Token) : tokenLine gap token =
    toString token.start.line ++ ":" ++ toString token.start.column ++ gap
      ++ token.kind.display := by
  rw [tokenLine, String.ofList_append, String.ofList_append]
  rfl

theorem tokenLines_eq (gap source : String) : tokenLines gap source =
    match tokenize source with
    | .error e => .error (.scan e)
    | .ok tokens => .ok (tokens.map (tokenLine gap)) := by
  rw [tokenLines]
  cases tokenize source <;> rfl

end Source

/-! ## Commands on a file that holds a source -/

namespace Report

variable {found : Found} {work : String → Except SourceError Report}

theorem ofSource_of_ok (path : String) {source : String} (h : found.source = .ok source) :
    ofSource path found work =
      match work source with
      | .error e => failure path (.source e)
      | .ok report => report := by
  rw [ofSource, h]
  dsimp only [bind, Except.bind]
  cases work source <;> rfl

theorem ofSource_of_error (path : String) {e : FileError} (h : found.source = .error e) :
    ofSource path found work = failure path e := by
  rw [ofSource, h]
  rfl

theorem ofSource_file (path source : String) :
    ofSource path (.file source.toUTF8) work =
      match work source with
      | .error e => failure path (.source e)
      | .ok report => report :=
  ofSource_of_ok path (Found.source_file_toUTF8 source)

end Report

namespace Command

variable (path source : String)

theorem report_check : (check path).report (.file source.toUTF8) =
    match Document.parse source with
    | .error e => .failure path (.source (.parse e))
    | .ok _ => { notes := "OK: " ++ path ++ "\n" } := by
  rw [report, Report.ofSource_file, Source.check_eq]
  cases Document.parse source <;> rfl

theorem report_format : (format path false).report (.file source.toUTF8) =
    match Document.parse source with
    | .error e => .failure path (.source (.parse e))
    | .ok doc => { output := String.ofList (Node.rendering doc.children) } := by
  rw [report, Report.ofSource_file, Source.format_eq]
  cases Document.parse source <;> rfl

theorem report_overwrite : (format path true).report (.file source.toUTF8) =
    match Document.parse source with
    | .error e => .failure path (.source (.parse e))
    | .ok doc =>
      { notes := "Wrote: " ++ path ++ "\n",
        replacement := some (String.ofList (Node.rendering doc.children)) } := by
  rw [report, Report.ofSource_file, Source.format_eq]
  cases Document.parse source <;> rfl

theorem report_overwrite_of_error {found : Found} {e : FileError}
    (h : found.source = .error e) : (format path true).report found = .failure path e := by
  rw [report, Report.ofSource_of_error path h]

theorem report_tree : (tree path).report (.file source.toUTF8) =
    match Document.parse source with
    | .error e => .failure path (.source (.parse e))
    | .ok doc => { output := "Document\n" ++ Node.outlining 1 doc.children } := by
  rw [report, Report.ofSource_file, Source.outline_eq]
  cases Document.parse source <;> rfl

theorem report_tokens : (tokens path).report (.file source.toUTF8) =
    match tokenize source with
    | .error e => .failure path (.source (.scan e))
    | .ok listed => { output := String.join (listed.map (Source.tokenLine "\t" · ++ "\n")) } := by
  rw [report, Report.ofSource_file, Source.tokenLines_eq]
  cases tokenize source with
  | error e => rfl
  | ok listed =>
    have hlines : (listed.map (Source.tokenLine "\t")).map (· ++ "\n")
        = listed.map (Source.tokenLine "\t" · ++ "\n") := List.map_map
    dsimp only
    rw [← hlines]
    rfl

end Command

/-! ## Agreement -/

/-- **Agreement.** A document can always be written and always has an outline. A source in a file
and a source by itself are checked, formatted and outlined with the same result, and this is a
failure only if the source is not read as a document; then what is reported is what reading it
reports. The tokens are listed alike, each on a line with its line, a colon and its column in front,
but for the space or tab between that place and the token; or the same error is reported. They are
listed whenever the source checks. -/
theorem front_ends_agree :
    (∀ doc : Document, (∃ text, doc.render = .ok text) ∧ ∃ lines, doc.outline = .ok lines) ∧
    ∀ path source : String,
      (∀ doc, Document.parse source = .ok doc → ∃ text lines,
        doc.render = .ok text ∧ doc.outline = .ok lines ∧
        Source.check source = .ok () ∧ Source.format source = .ok text ∧
        (Command.check path).report (.file source.toUTF8)
          = { notes := "OK: " ++ path ++ "\n" } ∧
        (Command.format path false).report (.file source.toUTF8) = { output := text } ∧
        (Command.format path true).report (.file source.toUTF8)
          = { notes := "Wrote: " ++ path ++ "\n", replacement := some text } ∧
        (Command.tree path).report (.file source.toUTF8) = { output := lines }) ∧
      (∀ e, Document.parse source = .error e →
        (Source.check source).mapError SourceError.message = .error e.message ∧
        (Source.format source).mapError SourceError.message = .error e.message ∧
        ∀ command ∈ [Command.check path, .format path false, .format path true, .tree path],
          command.report (.file source.toUTF8)
            = { code := 1, notes := path ++ ": " ++ e.message ++ "\n" }) ∧
      (∀ tokens, tokenize source = .ok tokens →
        Source.tokenLines " " source = .ok (tokens.map fun token ↦
          toString token.start.line ++ ":" ++ toString token.start.column ++ " "
            ++ token.kind.display) ∧
        (Command.tokens path).report (.file source.toUTF8)
          = { output := String.join (tokens.map fun token ↦
                toString token.start.line ++ ":" ++ toString token.start.column ++ "\t"
                  ++ token.kind.display ++ "\n") }) ∧
      (∀ e, tokenize source = .error e →
        (Source.tokenLines " " source).mapError SourceError.message = .error e.message ∧
        (Command.tokens path).report (.file source.toUTF8)
          = { code := 1, notes := path ++ ": " ++ e.message ++ "\n" }) ∧
      (Source.check source = .ok () → ∃ tokens, tokenize source = .ok tokens) := by
  refine ⟨fun doc ↦ ⟨⟨_, doc.render_eq⟩, _, doc.outline_eq⟩, fun path source ↦
    ⟨fun doc hdoc ↦ ?_, fun e he ↦ ?_, fun tokens htokens ↦ ?_, fun e he ↦ ?_, fun hcheck ↦ ?_⟩⟩
  · refine ⟨_, _, doc.render_eq, doc.outline_eq, ?_, ?_, ?_, ?_, ?_, ?_⟩
    · rw [Source.check_eq, hdoc]
    · rw [Source.format_eq, hdoc]
    · rw [Command.report_check, hdoc]
    · rw [Command.report_format, hdoc]
    · rw [Command.report_overwrite, hdoc]
    · rw [Command.report_tree, hdoc]
  · refine ⟨?_, ?_, ?_⟩
    · rw [Source.check_eq, he]
      rfl
    · rw [Source.format_eq, he]
      rfl
    · simp only [List.forall_mem_cons, List.not_mem_nil, false_imp_iff, implies_true, and_true,
        Command.report_check, Command.report_format, Command.report_overwrite,
        Command.report_tree, he]
      exact ⟨rfl, rfl, rfl, rfl⟩
  · simp only [Source.tokenLines_eq, Command.report_tokens, htokens, ← Source.tokenLine_eq,
      and_self]
  · rw [Source.tokenLines_eq, Command.report_tokens, he]
    exact ⟨rfl, rfl⟩
  · rw [Source.check_eq] at hcheck
    cases hparse : Document.parse source with
    | error e =>
      rw [hparse] at hcheck
      contradiction
    | ok doc =>
      obtain ⟨tokens, last, htokens, -⟩ := Document.parse_eq_ok_iff_run.mp hparse
      exact ⟨_, htokens⟩

/-- A text and an echo tag are listed token by token; a loop that is closed but not open is reported
alike. -/
theorem front_ends_agree_on_echo :
    Source.format "a\x7b$=1$\x7d" = .ok "a\x7b$=1$\x7d" ∧
    (Command.tree "t").report (.file "a\x7b$=1$\x7d".toUTF8)
      = { output := "Document\n  Text \"a\"\n  Echo Integer(1)\n" } ∧
    Source.tokenLines " " "a\x7b$=1$\x7d" = .ok ["1:1 TEXT \"a\"", "1:2 TAG_START",
      "1:4 TAG_NAME =", "1:5 INTEGER 1", "1:6 TAG_END", "1:8 EOF"] ∧
    (Command.tokens "t").report (.file "a\x7b$=1$\x7d".toUTF8)
      = { output := "1:1\tTEXT \"a\"\n1:2\tTAG_START\n1:4\tTAG_NAME =\n1:5\tINTEGER 1\n" ++
            "1:6\tTAG_END\n1:8\tEOF\n" } ∧
    (Command.check "t").report (.file "\x7b$END$\x7d".toUTF8)
      = { code := 1,
          notes := "t: Parse error at line 1, column 1: END tag without an open FOR\n" } := by
  have hparse : Document.parse "a\x7b$=1$\x7d" = .ok ⟨[.text "a", .echo [.integer 1]]⟩ := by
    decide +kernel
  have htokens : tokenize "a\x7b$=1$\x7d" = .ok
      [⟨.text "a", ⟨0, 1, 1⟩, ⟨1, 1, 2⟩⟩, ⟨.tagStart, ⟨1, 1, 2⟩, ⟨3, 1, 4⟩⟩,
        ⟨.tagHead "=", ⟨3, 1, 4⟩, ⟨4, 1, 5⟩⟩, ⟨.element (.integer 1), ⟨4, 1, 5⟩, ⟨5, 1, 6⟩⟩,
        ⟨.tagEnd, ⟨5, 1, 6⟩, ⟨7, 1, 8⟩⟩, ⟨.endOfInput, ⟨7, 1, 8⟩, ⟨7, 1, 8⟩⟩] := by
    decide +kernel
  have hfails : Document.parse "\x7b$END$\x7d" = .error ⟨.unexpectedEnd, .origin⟩ := by
    decide +kernel
  obtain ⟨-, hagree⟩ := front_ends_agree
  obtain ⟨hread, -, hlisted, -, -⟩ := hagree "t" "a\x7b$=1$\x7d"
  obtain ⟨-, hfailed, -⟩ := hagree "t" "\x7b$END$\x7d"
  obtain ⟨text, lines, hrender, houtline, -, hformat, -, -, -, htree⟩ := hread _ hparse
  obtain ⟨hlines, hreport⟩ := hlisted _ htokens
  obtain ⟨-, -, hcommands⟩ := hfailed _ hfails
  obtain rfl : text = "a\x7b$=1$\x7d" := Except.ok.inj (hrender.symm.trans (by decide +kernel))
  obtain rfl : lines = "Document\n  Text \"a\"\n  Echo Integer(1)\n" :=
    Except.ok.inj (houtline.symm.trans (by decide +kernel))
  rw [hformat, htree, hlines, hreport, hcommands _ List.mem_cons_self]
  refine ⟨rfl, rfl, ?_, ?_, rfl⟩ <;> decide +kernel

end TagTemplate
