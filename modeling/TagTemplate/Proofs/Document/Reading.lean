import TagTemplate.Document.Parse
import TagTemplate.Proofs.Token.Scan

/-!
# Documents token by token

The functions that read a document call each other the way the parts of a template are nested: one
for the whole, one for a tag, one for the elements of a tag. For what happens over a whole run it
is easier to think of one machine that is told one token after the other. Its state is a `Reading`,
the document under construction together with what is known of the tag that is open, if one is.

The machine takes the tokens from the stream as they are needed (`Reading.drive`), and that is what
the nested functions do as well (`Document.parse_eq_drive`). Where no error comes up it makes no
difference when tokens are taken, so a source is read as a document exactly when it has tokens and
the machine, told all of them, comes to that document (`Document.parse_eq_ok_iff_run`).
-/

namespace TagTemplate

/-! ## The machine -/

/-- How far the reading of a document has come. -/
inductive Reading where
  /-- Between tags. -/
  | between (builder : Builder)
  /-- A tag has been opened at a place. -/
  | opened (opening : Position) (builder : Builder)
  /-- The head of a tag has been read, and elements, latest first. -/
  | inside (opening : Position) (head : TagHead) (done : List Element) (builder : Builder)

namespace Reading

/-- Takes a token that is not the end of the input. -/
def step (reading : Reading) (token : Token) : Except ParseError Reading :=
  match reading with
  | between builder =>
    match token.kind with
    | .text content => .ok (between (builder.append (.text content)))
    | .tagStart => .ok (opened token.start builder)
    | kind => .error ⟨.misplacedToken kind, token.start⟩
  | opened opening builder =>
    match TagHead.ofToken? token.kind with
    | none => .error ⟨.unknownTag token.kind, token.start⟩
    | some head => .ok (inside opening head [] builder)
  | inside opening head done builder =>
    match token.kind with
    | .tagEnd =>
      match head.apply opening done.reverse builder with
      | .error fault => .error ⟨fault, opening⟩
      | .ok builder => .ok (between builder)
    | .element e => .ok (inside opening head (e :: done) builder)
    | kind => .error ⟨.misplacedToken kind, token.start⟩

/-- Takes the end of the input. -/
def finish (reading : Reading) (token : Token) : Except ParseError Document :=
  match reading with
  | between builder => builder.toDocument
  | opened _ _ => .error ⟨.unknownTag token.kind, token.start⟩
  | inside _ _ _ _ => .error ⟨.misplacedToken token.kind, token.start⟩

/-- Takes tokens, none of them the end of the input, up to the first error. -/
def run (reading : Reading) : List Token → Except ParseError Reading
  | [] => .ok reading
  | token :: tokens =>
    match reading.step token with
    | .error e => .error e
    | .ok reading => reading.run tokens

/-- Takes tokens from a stream, up to the end of the input or the first error. -/
def drive (stream : TokenStream) (reading : Reading) : Except ParseError Document :=
  match _hnext : stream.next with
  | (.error e, _) => .error e.toParseError
  | (.ok token, after) =>
    if _hkind : token.kind = .endOfInput then reading.finish token
    else
      match reading.step token with
      | .error e => .error e
      | .ok reading => drive after reading
termination_by stream.remaining
decreasing_by exact TokenStream.remaining_lt_of_next ‹_› ‹_›

/-! ## One step of the machine -/

variable {stream after : TokenStream} {token : Token}

theorem drive_of_next_eq_error {e : ScanError} (h : stream.next = (.error e, after))
    (reading : Reading) : drive stream reading = .error e.toParseError := by
  rw [drive]
  split <;> simp_all

theorem drive_of_next_eq_end (h : stream.next = (.ok token, after))
    (hkind : token.kind = .endOfInput) (reading : Reading) :
    drive stream reading = reading.finish token := by
  rw [drive]
  split <;> simp_all

theorem drive_of_next_eq_ok (h : stream.next = (.ok token, after))
    (hkind : token.kind ≠ .endOfInput) (reading : Reading) :
    drive stream reading =
      match reading.step token with
      | .error e => .error e
      | .ok reading => drive after reading := by
  rw [drive]
  split <;> simp_all

theorem step_between_misplaced {builder : Builder} (htext : ∀ content, token.kind ≠ .text content)
    (hstart : token.kind ≠ .tagStart) :
    (between builder).step token = .error ⟨.misplacedToken token.kind, token.start⟩ := by
  rw [step]
  split
  · exact absurd ‹_› (htext _)
  · exact absurd ‹_› hstart
  · rfl

theorem step_inside_misplaced {opening : Position} {head : TagHead} {done : List Element}
    {builder : Builder} (hend : token.kind ≠ .tagEnd) (helement : ∀ e, token.kind ≠ .element e) :
    (inside opening head done builder).step token
      = .error ⟨.misplacedToken token.kind, token.start⟩ := by
  rw [step]
  split
  · exact absurd ‹_› hend
  · exact absurd ‹_› (helement _)
  · rfl

theorem run_append (reading : Reading) (tokens more : List Token) :
    reading.run (tokens ++ more) =
      match reading.run tokens with
      | .error e => .error e
      | .ok reading => reading.run more := by
  induction tokens generalizing reading with
  | nil => rfl
  | cons token tokens ih =>
    rw [List.cons_append, run, run]
    cases reading.step token with
    | error e => rfl
    | ok reading => exact ih reading

/-! ## Tokens taken one by one and all at once -/

private theorem drive_of_run {stream : TokenStream} {tokens : List Token} {last : Token}
    {reading reached : Reading} {doc : Document}
    (h : stream.collect [] = .ok (tokens ++ [last])) (hrun : reading.run tokens = .ok reached)
    (hfinish : reached.finish last = .ok doc) : drive stream reading = .ok doc := by
  induction tokens generalizing stream reading with
  | nil =>
    obtain ⟨token, after, hnext, ⟨hend, heq⟩ | ⟨-, more, hmore, heq⟩⟩ :=
      TokenStream.collect_eq_ok_iff.mp h
    · obtain rfl := (List.cons.inj heq).1
      obtain rfl := Except.ok.inj hrun
      rw [drive_of_next_eq_end hnext hend, hfinish]
    · -- Behind the last token something would have been read, and be it the end of the input.
      obtain ⟨-, rfl⟩ := List.cons.inj heq
      obtain ⟨_, _, _, ⟨-, hnil⟩ | ⟨-, _, -, hnil⟩⟩ := TokenStream.collect_eq_ok_iff.mp hmore <;>
        contradiction
  | cons token tokens ih =>
    obtain ⟨first, after, hnext, ⟨-, heq⟩ | ⟨hkind, more, hmore, heq⟩⟩ :=
      TokenStream.collect_eq_ok_iff.mp h
    · exact absurd (List.cons.inj heq).2 (by simp)
    · obtain ⟨rfl, rfl⟩ := List.cons.inj heq
      rw [drive_of_next_eq_ok hnext hkind]
      rw [run] at hrun
      cases hstep : reading.step token with
      | error e =>
        rw [hstep] at hrun
        contradiction
      | ok next =>
        rw [hstep] at hrun
        exact ih hmore hrun

private theorem exists_run_of_drive {stream : TokenStream} {reading : Reading} {doc : Document}
    (h : drive stream reading = .ok doc) :
    ∃ tokens last, stream.collect [] = .ok (tokens ++ [last]) ∧
      ∃ reached, reading.run tokens = .ok reached ∧ reached.finish last = .ok doc := by
  fun_induction drive stream reading with
  | case1 => contradiction
  | case2 stream reading token after hnext hkind =>
    exact ⟨[], token, TokenStream.collect_of_next_eq_end hnext hkind, reading, rfl, h⟩
  | case3 => contradiction
  | case4 stream reading token after hnext hkind next hstep ih =>
    obtain ⟨tokens, last, hcollect, reached, hrun, hfinish⟩ := ih h
    refine ⟨token :: tokens, last, ?_, reached, ?_, hfinish⟩
    · exact TokenStream.collect_eq_ok_iff.mpr
        ⟨token, after, hnext, Or.inr ⟨hkind, _, hcollect, rfl⟩⟩
    · rw [run, hstep]
      exact hrun

theorem drive_eq_ok_iff {stream : TokenStream} {reading : Reading} {doc : Document} :
    drive stream reading = .ok doc ↔ ∃ tokens last, stream.collect [] = .ok (tokens ++ [last]) ∧
      ∃ reached, reading.run tokens = .ok reached ∧ reached.finish last = .ok doc := by
  refine ⟨exists_run_of_drive, ?_⟩
  rintro ⟨tokens, last, hcollect, reached, hrun, hfinish⟩
  exact drive_of_run hcollect hrun hfinish

/-! ## The nested functions -/

theorem drive_inside (opening : Position) (head : TagHead) (builder : Builder)
    (stream : TokenStream) (done : List Element) :
    drive stream (inside opening head done builder) =
      match readElements stream done with
      | .error e => .error e
      | .ok (elements, rest) =>
        match head.apply opening elements builder with
        | .error fault => .error ⟨fault, opening⟩
        | .ok builder => drive rest (between builder) := by
  fun_induction readElements stream done with
  | case1 stream done e after hnext => exact drive_of_next_eq_error hnext _
  | case2 stream done token after hnext hkind =>
    rw [drive_of_next_eq_ok hnext (by simp [hkind]), step, hkind]
    dsimp only
    cases head.apply opening done.reverse builder <;> rfl
  | case3 stream done token after hnext e hkind ih =>
    rw [drive_of_next_eq_ok hnext (by simp [hkind]), step, hkind]
    exact ih
  | case4 stream done token after hnext hend helement =>
    by_cases hinput : token.kind = .endOfInput
    · rw [drive_of_next_eq_end hnext hinput, finish]
    · rw [drive_of_next_eq_ok hnext hinput, step_inside_misplaced hend helement]

theorem drive_opened (opening : Position) (builder : Builder) (stream : TokenStream) :
    drive stream (opened opening builder) =
      match readTag opening stream builder with
      | .error e => .error e
      | .ok (builder, rest) => drive rest (between builder) := by
  rw [readTag]
  obtain ⟨e | token, after, hnext⟩ : ∃ result after, stream.next = (result, after) := ⟨_, _, rfl⟩
  all_goals rw [hnext]
  · exact drive_of_next_eq_error hnext _
  dsimp only
  by_cases hinput : token.kind = .endOfInput
  · rw [drive_of_next_eq_end hnext hinput, finish, hinput]
    rfl
  rw [drive_of_next_eq_ok hnext hinput, step]
  cases TagHead.ofToken? token.kind with
  | none => rfl
  | some head =>
    dsimp only
    rw [drive_inside]
    obtain e | ⟨elements, rest⟩ := readElements after []
    · rfl
    dsimp only
    cases head.apply opening elements builder <;> rfl

theorem readFrom_eq_drive (stream : TokenStream) (builder : Builder) :
    Builder.readFrom stream builder = drive stream (between builder) := by
  fun_induction Builder.readFrom stream builder with
  | case1 stream builder e after hnext => exact (drive_of_next_eq_error hnext _).symm
  | case2 stream builder token after hnext content hkind ih =>
    rw [ih, drive_of_next_eq_ok hnext (by simp [hkind]), step, hkind]
  | case3 stream builder token after hnext hkind e htag =>
    rw [drive_of_next_eq_ok hnext (by simp [hkind]), step, hkind]
    dsimp only
    rw [drive_opened, htag]
  | case4 stream builder token after hnext hkind builder' rest htag ih =>
    rw [drive_of_next_eq_ok hnext (by simp [hkind]), step, hkind]
    dsimp only
    rw [drive_opened, htag]
    exact ih
  | case5 stream builder token after hnext hkind =>
    rw [drive_of_next_eq_end hnext hkind, finish]
  | case6 stream builder token after hnext htext hstart hend =>
    rw [drive_of_next_eq_ok hnext hend, step_between_misplaced htext hstart]

end Reading

/-- A document is read from a source as the machine reads it. -/
theorem Document.parse_eq_drive (source : String) :
    Document.parse source = Reading.drive (.ofSource source) (.between .empty) :=
  Reading.readFrom_eq_drive _ _

/-- A source is read as a document when it has tokens and the machine comes to that document when
it is told all of them. -/
theorem Document.parse_eq_ok_iff_run {source : String} {doc : Document} :
    Document.parse source = .ok doc ↔ ∃ tokens last, tokenize source = .ok (tokens ++ [last]) ∧
      ∃ reached, (Reading.between .empty).run tokens = .ok reached ∧
        reached.finish last = .ok doc := by
  rw [Document.parse_eq_drive, Reading.drive_eq_ok_iff]
  rfl

end TagTemplate
