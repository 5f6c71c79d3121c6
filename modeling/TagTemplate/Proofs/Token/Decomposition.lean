import Mathlib.Data.List.Chain
import TagTemplate.Proofs.Token.Scan

/-!
# Tokens by their spans

A list of tokens is the decomposition of a source when each token is right where its span says it
is (`Token.StandsIn`), neighbours are in order with nothing but blanks between them
(`Token.Precedes`), and the list starts at the beginning of the source and stops at its end
(`IsDecomposition`). This says nothing about how the tokens are found: it is a condition on spans
and slices, and each of its parts can be checked by itself.

A source that scans as a list of tokens is decomposed by them, and the other way round
(`isDecomposition_iff_scans`), so the tokens that are read from a source are exactly its
decomposition.

## Exponents

The digits of an exponent count for as much as `Exponent.size` says, and that is all that keeps a
number in a source from having the value that is written there. For an exponent of six digits the
difference can show: enough zeros behind the point of a numeral take what the digits of its exponent
should have given back (`cutOffSource`).
-/

namespace TagTemplate

/-! ## Slices -/

/-- The characters of a source between two positions. -/
def slice (cs : List Char) (start stop : Position) : List Char :=
  (cs.take stop.offset).drop start.offset

theorem Position.offset_after_origin (cs : List Char) :
    (Position.origin.after cs).offset = cs.length := by
  rw [Position.offset_after, Position.origin, Nat.zero_add]

theorem slice_after (before between behind : List Char) :
    slice (before ++ (between ++ behind)) (Position.origin.after before)
      (Position.origin.after (before ++ between)) = between := by
  rw [slice, Position.offset_after_origin, Position.offset_after_origin, ← List.append_assoc,
    List.take_left, List.drop_left]

/-! ## Decompositions -/

variable (size : List Char → ℕ) (cs : List Char)

/-- What a token of a source has to be by itself. -/
structure Token.StandsIn (token : Token) : Prop where
  /-- Its span is not turned round. -/
  start_le_stop : token.start.offset ≤ token.stop.offset
  /-- Its span lies in the source. -/
  stop_le_length : token.stop.offset ≤ cs.length
  /-- The line and column of its start are those of that offset. -/
  start_eq : token.start = Position.origin.after (cs.take token.start.offset)
  /-- The line and column of its stop are those of that offset. -/
  stop_eq : token.stop = Position.origin.after (cs.take token.stop.offset)
  /-- Its slice is written as its kind says. -/
  spelled : Spelled size token.kind (slice cs token.start token.stop)
  /-- It goes on for as long as it can. -/
  ends : token.kind.EndsBefore (slice cs token.start token.stop) (cs.drop token.stop.offset)

/-- What holds of a token of a source and the one after it. -/
structure Token.Precedes (token next : Token) : Prop where
  /-- They do not overlap. -/
  stop_le_start : token.stop.offset ≤ next.start.offset
  /-- Only blanks are between them. -/
  isBlank : ∀ c ∈ slice cs token.stop next.start, isBlank c = true
  /-- Between tags not even blanks are. -/
  stop_eq_start : Mode.text.Admits next.kind → token.stop.offset = next.start.offset
  /-- The second may come behind the first. -/
  admits : token.kind.mode.Admits next.kind

/-- Whether a source consists of the given tokens. -/
structure IsDecomposition (tokens : List Token) : Prop where
  /-- Each of them stands in it. -/
  standsIn : ∀ token ∈ tokens, token.StandsIn size cs
  /-- Neighbours are in order. -/
  isChain : tokens.IsChain (Token.Precedes cs)
  /-- The first of them stands at the beginning, and not inside a tag. -/
  first : ∀ token ∈ tokens.head?, token.start.offset = 0 ∧ Mode.text.Admits token.kind
  /-- The last of them, and no other, is the end of the input. -/
  last : ∃ others, tokens = others ++ [⟨.endOfInput, Position.origin.after cs,
    Position.origin.after cs⟩] ∧ ∀ token ∈ others, token.kind ≠ .endOfInput

/-! ## Decompositions and scans -/

variable {size cs}

private theorem standsIn_append (before : List Char) {written rest : List Char}
    {kind : TokenKind} (hspelled : Spelled size kind written)
    (hends : kind.EndsBefore written rest) :
    Token.StandsIn size (before ++ (written ++ rest)) ⟨kind, Position.origin.after before,
      Position.origin.after (before ++ written)⟩ where
  start_le_stop := by
    simp only [Position.offset_after_origin, List.length_append]
    omega
  stop_le_length := by
    simp only [Position.offset_after_origin, List.length_append]
    omega
  start_eq := by
    dsimp only
    rw [Position.offset_after_origin, List.take_left]
  stop_eq := by
    dsimp only
    rw [Position.offset_after_origin, ← List.append_assoc, List.take_left]
  spelled := by rwa [slice_after]
  ends := by
    rw [slice_after]
    dsimp only
    rwa [Position.offset_after_origin, ← List.append_assoc, List.drop_left]

private theorem eq_text_of_admits {mode : Mode} {kind : TokenKind} (h : mode.Admits kind)
    (htext : Mode.text.Admits kind) : mode = .text := by
  cases htext with
  | text _ => cases h; rfl
  | endOfInput => cases h; rfl
  | tagStart => cases h; rfl
  | tagEnd hne => exact absurd rfl hne

private theorem precedes_append (passed gap behind : List Char) {previous next : Token}
    (hstop : previous.stop = Position.origin.after passed)
    (hstart : next.start = Position.origin.after (passed ++ gap))
    (hgap : previous.kind.mode.Gap gap) (hadmits : previous.kind.mode.Admits next.kind) :
    Token.Precedes (passed ++ (gap ++ behind)) previous next where
  stop_le_start := by
    rw [hstop, hstart, Position.offset_after_origin, Position.offset_after_origin,
      List.length_append]
    omega
  isBlank := by
    rw [hstop, hstart, slice_after]
    exact hgap.isBlank
  stop_eq_start htext := by
    rw [hstop, hstart, hgap.eq_nil (eq_text_of_admits hadmits htext), List.append_nil]
  admits := hadmits

/-- What scans from a place on is decomposed from there on, as seen from the token before. -/
private theorem decomposition_of_scans {p : Position} {mode : Mode} {ds : List Char}
    {tokens : List Token} (h : Scans size p mode ds tokens) (passed : List Char) (previous : Token)
    (hp : p = Position.origin.after passed) (hstop : previous.stop = p)
    (hmode : previous.kind.mode = mode) :
    (∀ token ∈ tokens, token.StandsIn size (passed ++ ds)) ∧
      (previous :: tokens).IsChain (Token.Precedes (passed ++ ds)) ∧
      ∃ others, tokens = others ++ [⟨.endOfInput, Position.origin.after (passed ++ ds),
        Position.origin.after (passed ++ ds)⟩] ∧ ∀ token ∈ others, token.kind ≠ .endOfInput := by
  induction h generalizing passed previous with
  | endOfInput p =>
    subst hp
    have hstands := standsIn_append passed (.endOfInput : Spelled size .endOfInput [])
      (show TokenKind.endOfInput.EndsBefore [] [] from rfl)
    have hprecedes : Token.Precedes (passed ++ []) previous ⟨.endOfInput,
        Position.origin.after (passed ++ []), Position.origin.after (passed ++ [])⟩ :=
      precedes_append passed [] [] hstop rfl ⟨by simp, fun _ ↦ rfl⟩ (hmode ▸ .endOfInput)
    simp only [List.append_nil] at hstands hprecedes ⊢
    exact ⟨by simpa using hstands, by simpa using hprecedes, [], rfl, by simp⟩
  | @token p mode gap written rest kind tokens hgap hkind hpiece _ ih =>
    -- The token that was next has been passed, and is the one before those that are left.
    subst hp hmode
    obtain ⟨hstands, hchain, others, rfl, hothers⟩ :=
      ih (passed ++ (gap ++ written)) ⟨kind, (Position.origin.after passed).after gap,
          ((Position.origin.after passed).after gap).after written⟩
        (by rw [Position.after_append, Position.after_append]) rfl rfl
    have hassoc : passed ++ (gap ++ (written ++ rest)) = passed ++ (gap ++ written) ++ rest := by
      rw [List.append_assoc, List.append_assoc]
    rw [hassoc]
    refine ⟨?_, ?_, _ :: others, rfl, ?_⟩
    · intro token htoken
      rcases List.mem_cons.mp htoken with rfl | htoken
      · have := standsIn_append (passed ++ gap) hpiece.spelled hpiece.ends
        rw [Position.after_append, Position.after_append, Position.after_append] at this
        simpa only [List.append_assoc] using this
      · exact hstands token htoken
    · refine List.isChain_cons_cons.mpr ⟨?_, hchain⟩
      rw [← hassoc]
      exact precedes_append passed gap _ hstop (Position.after_append _ _ _).symm hgap hpiece.admits
    · intro token htoken
      rcases List.mem_cons.mp htoken with rfl | htoken
      · exact hkind
      · exact hothers token htoken

private theorem exists_append_of_offsets {passed ds : List Char} {b c : ℕ}
    (hb : passed.length ≤ b) (hbc : b ≤ c) (hc : c ≤ (passed ++ ds).length) :
    ∃ gap written rest, ds = gap ++ (written ++ rest) ∧ b = (passed ++ gap).length ∧
      c = (passed ++ gap ++ written).length := by
  refine ⟨ds.take (b - passed.length), (ds.drop (b - passed.length)).take (c - b),
    (ds.drop (b - passed.length)).drop (c - b), ?_, ?_, ?_⟩
  · rw [List.take_append_drop, List.take_append_drop]
  · rw [List.length_append] at hc ⊢
    rw [List.length_take]
    omega
  · rw [List.length_append] at hc
    rw [List.length_append, List.length_append, List.length_take, List.length_take,
      List.length_drop]
    omega

private theorem exists_piece_of_precedes {passed ds : List Char} {previous token : Token}
    (hstop : previous.stop = Position.origin.after passed)
    (htoken : token.StandsIn size (passed ++ ds))
    (hprecedes : previous.Precedes (passed ++ ds) token) :
    ∃ gap written rest, ds = gap ++ (written ++ rest) ∧ previous.kind.mode.Gap gap ∧
      IsPiece size previous.kind.mode token.kind written rest ∧
      token.start = Position.origin.after (passed ++ gap) ∧
      token.stop = Position.origin.after (passed ++ gap ++ written) := by
  have hle := hprecedes.stop_le_start
  rw [hstop, Position.offset_after_origin] at hle
  obtain ⟨gap, written, rest, rfl, hb, hc⟩ :=
    exists_append_of_offsets hle htoken.start_le_stop htoken.stop_le_length
  have hassoc : passed ++ (gap ++ (written ++ rest)) = passed ++ gap ++ (written ++ rest) := by
    rw [← List.append_assoc]
  have hassoc' : passed ++ (gap ++ (written ++ rest)) = passed ++ gap ++ written ++ rest := by
    rw [← List.append_assoc, ← List.append_assoc]
  -- Positions are determined by their offsets, and slices by positions.
  have hstart : token.start = Position.origin.after (passed ++ gap) := by
    rw [htoken.start_eq, hb, hassoc, List.take_left]
  have hend : token.stop = Position.origin.after (passed ++ gap ++ written) := by
    rw [htoken.stop_eq, hc, hassoc', List.take_left]
  have hwritten : slice (passed ++ (gap ++ (written ++ rest))) token.start token.stop
      = written := by
    rw [hstart, hend, hassoc, slice_after]
  have hbetween : slice (passed ++ (gap ++ (written ++ rest))) previous.stop token.start
      = gap := by
    rw [hstart, hstop, slice_after]
  have hrest : (passed ++ (gap ++ (written ++ rest))).drop token.stop.offset = rest := by
    rw [hc, hassoc', List.drop_left]
  refine ⟨gap, written, rest, rfl, ⟨hbetween ▸ hprecedes.isBlank, fun htext ↦ ?_⟩,
    ⟨hprecedes.admits, hwritten ▸ htoken.spelled, ?_⟩, hstart, hend⟩
  · have hoffset := hprecedes.stop_eq_start (htext ▸ hprecedes.admits)
    rw [hb, hstop, Position.offset_after_origin, List.length_append] at hoffset
    exact List.eq_nil_of_length_eq_zero (by omega)
  · have hends := htoken.ends
    rwa [hwritten, hrest] at hends

private theorem scans_of_decomposition {others : List Token} {ds : List Char}
    (passed : List Char) (previous : Token) {last : Token}
    (hstop : previous.stop = Position.origin.after passed)
    (hstands : ∀ token ∈ others ++ [last], token.StandsIn size (passed ++ ds))
    (hchain : (previous :: (others ++ [last])).IsChain (Token.Precedes (passed ++ ds)))
    (hlast : last = ⟨.endOfInput, Position.origin.after (passed ++ ds),
      Position.origin.after (passed ++ ds)⟩)
    (hothers : ∀ token ∈ others, token.kind ≠ .endOfInput) :
    Scans size previous.stop previous.kind.mode ds (others ++ [last]) := by
  induction others generalizing passed previous ds with
  | nil =>
    subst hlast
    obtain ⟨hprecedes, -⟩ := List.isChain_cons_cons.mp hchain
    have hmode : previous.kind.mode = .text := eq_text_of_admits hprecedes.admits .endOfInput
    have hoffset := hprecedes.stop_eq_start .endOfInput
    rw [hstop, Position.offset_after_origin, Position.offset_after_origin,
      List.length_append] at hoffset
    obtain rfl : ds = [] := List.eq_nil_of_length_eq_zero (by omega)
    rw [List.append_nil, hmode, hstop]
    exact .endOfInput _
  | cons token others ih =>
    rw [List.cons_append] at hstands hchain ⊢
    obtain ⟨hprecedes, hchain⟩ := List.isChain_cons_cons.mp hchain
    obtain ⟨gap, written, rest, rfl, hgap, hpiece, hstart, hend⟩ :=
      exists_piece_of_precedes hstop (hstands token List.mem_cons_self) hprecedes
    have hassoc : passed ++ (gap ++ (written ++ rest)) = passed ++ gap ++ written ++ rest := by
      rw [← List.append_assoc, ← List.append_assoc]
    rw [hassoc] at hstands hchain hlast
    have hmore := ih (passed ++ gap ++ written) token hend
      (fun u hu ↦ hstands u (List.mem_cons_of_mem _ hu)) hchain hlast
      (fun u hu ↦ hothers u (List.mem_cons_of_mem _ hu))
    have htoken : token = ⟨token.kind, previous.stop.after gap,
        (previous.stop.after gap).after written⟩ := by
      rw [hstop, ← Position.after_append, ← Position.after_append, ← hstart, ← hend]
    have hscans := Scans.token (p := previous.stop) hgap
      (hothers token List.mem_cons_self) hpiece (congrArg Token.stop htoken ▸ hmore)
    rwa [← htoken] at hscans

theorem isDecomposition_iff_scans {tokens : List Token} :
    IsDecomposition size cs tokens ↔ Scans size .origin .text cs tokens := by
  -- The place before the first token is like the one behind a tag of no characters.
  let before : Token := ⟨.tagEnd, .origin, .origin⟩
  constructor
  · rintro ⟨hstands, hchain, hfirst, others, rfl, hothers⟩
    refine scans_of_decomposition [] before rfl hstands (hchain.cons fun token htoken ↦ ?_) rfl
      hothers
    obtain ⟨hzero, hadmits⟩ := hfirst token htoken
    refine ⟨Nat.zero_le _, ?_, fun _ ↦ hzero.symm, hadmits⟩
    rw [slice, hzero, List.take_zero, List.drop_nil]
    simp
  · intro h
    obtain ⟨hstands, hchain, hlast⟩ := decomposition_of_scans h [] before rfl rfl rfl
    refine ⟨hstands, hchain.tail, fun token htoken ↦ ?_, hlast⟩
    obtain ⟨tokens, rfl⟩ := List.head?_eq_some_iff.mp htoken
    obtain ⟨hprecedes, -⟩ := List.isChain_cons_cons.mp hchain
    exact ⟨(hprecedes.stop_eq_start hprecedes.admits).symm, hprecedes.admits⟩

/-- **Tokens.** The tokens that are read from a source are its decomposition: what is read is one,
and a source that has one is read as it. The digits of an exponent count in full if they make less
than ten times `Exponent.enough`. -/
theorem tokenize_eq_ok_iff_isDecomposition :
    (∀ source tokens, tokenize source = .ok tokens ↔
      IsDecomposition Exponent.size source.toList tokens) ∧
    ∀ digits, Nat.ofDigitChars 10 digits 0 < 10 * Exponent.enough →
      Exponent.size digits = Nat.ofDigitChars 10 digits 0 := by
  refine ⟨fun source tokens ↦ ?_, fun digits h ↦ Numeral.size_eq_ofDigitChars h⟩
  rw [tokenize_eq_ok_iff_scans, isDecomposition_iff_scans]

/-! ## Exponents of many digits -/

/-- An echo tag of one number, given how that is written. -/
def echoOf (written : List Char) : List Char :=
  ['{', '$'] ++ (['='] ++ (written ++ (['$', '}'] ++ [])))

private theorem scans_echoOf {n : Numeral} {x : Binary64} {written : List Char}
    (hwritten : n.Written written) (hdenotes : n.Denotes size (.double x)) :
    ∃ token : Token, ∃ tokens, Scans size .origin .text (echoOf written) tokens ∧
      token ∈ tokens ∧ token.kind = .element (.double x) ∧
      slice (echoOf written) token.start token.stop = written := by
  have hend : Numeral.Longest written (['$', '}'] ++ []) :=
    Numeral.longest_of_head (forall_mem_head?_cons.mpr rfl)
  have hscans := Scans.adjacent (p := .origin) ⟨.tagStart, .tagStart, trivial⟩ (by decide)
    (.adjacent ⟨.tagHead _, .equalsSign, Or.inl rfl⟩ (by decide)
      (.adjacent ⟨.bodyElement _, .number hwritten hdenotes, hend⟩ (by simp)
        (.adjacent ⟨.tagEnd nofun, .tagEnd, trivial⟩ (by decide) (.endOfInput _))))
  refine ⟨_, _, hscans, List.mem_cons_of_mem _ (List.mem_cons_of_mem _ List.mem_cons_self), rfl, ?_⟩
  have hslice := slice_after (['{', '$'] ++ ['=']) written ['$', '}']
  rwa [Position.after_append, Position.after_append] at hslice

private theorem denotes_of_isDecomposition {tokens : List Token} {token : Token} {n : Numeral}
    {x : Binary64} {written : List Char} (h : IsDecomposition size cs tokens)
    (htoken : token ∈ tokens) (hkind : token.kind = .element (.double x))
    (hslice : slice cs token.start token.stop = written) (hwritten : n.Written written) :
    n.Denotes size (.double x) := by
  have hspelled := (h.standsIn token htoken).spelled
  rw [hkind, hslice] at hspelled
  cases hspelled with
  | number hwritten' hdenotes =>
    rwa [← Numeral.read_of_written hwritten, Numeral.read_of_written hwritten']

/-- A one that is written with zeros behind the point and an exponent that makes up for them, if
there is one zero less than that. -/
def shiftedOne (zeros : ℕ) : Numeral where
  negative := false
  whole := ['0']
  fraction := List.replicate zeros '0' ++ ['1']
  exponent := some ⟨none, ['6', '5', '5', '3', '6', '1']⟩

/-- How such a number is written. -/
def shiftedOneText (zeros : ℕ) : List Char :=
  ['0'] ++ (('.' :: (List.replicate zeros '0' ++ ['1'])) ++ ['e', '6', '5', '5', '3', '6', '1'])

theorem written_shiftedOne (zeros : ℕ) :
    (shiftedOne zeros).Written (shiftedOneText zeros) := by
  have hdigits : ∀ c ∈ List.replicate zeros '0' ++ ['1'], c.isDigit = true :=
    List.forall_mem_append.mpr ⟨isDigit_replicate zeros, by simp⟩
  have hexponent : Numeral.WrittenExponent (some ⟨none, ['6', '5', '5', '3', '6', '1']⟩)
      ['e', '6', '5', '5', '3', '6', '1'] :=
    .some (Or.inl rfl) ⟨List.cons_ne_nil _ _, List.all_eq_true.mp rfl⟩
  exact .intro false ⟨List.cons_ne_nil _ _, by simp⟩
    (.some ⟨List.append_ne_nil_of_right_ne_nil _ (List.cons_ne_nil _ _), hdigits⟩) hexponent

theorem decimalWith_shiftedOne (size : List Char → ℕ) (zeros : ℕ) :
    (shiftedOne zeros).decimalWith size
      = ⟨1, size ['6', '5', '5', '3', '6', '1'] - (zeros + 1 : ℕ)⟩ := by
  have hdigits : Nat.ofDigitChars 10 ((shiftedOne zeros).whole ++ (shiftedOne zeros).fraction) 0
      = 1 := by
    rw [shiftedOne, Nat.ofDigitChars_append, Nat.ofDigitChars_append,
      show Nat.ofDigitChars 10 ['0'] 0 = 0 from rfl, Nat.ofDigitChars_replicate_zero, Nat.mul_zero]
    rfl
  have hlength : (shiftedOne zeros).fraction.length = zeros + 1 := by
    rw [shiftedOne, List.length_append, List.length_replicate, List.length_singleton]
  rw [Numeral.decimalWith, hdigits, hlength]
  rfl

/-- As far as the digits of its exponent count, such a number comes to nothing. -/
theorem denotes_shiftedOne :
    (shiftedOne 655360).Denotes Exponent.size (.double ⟨false, 0, by decide⟩) := by
  refine .double (Or.inr nofun) rfl (by decide) (Binary64.magnitudeOfDecimal_eq_iff.mp ?_)
  rw [decimalWith_shiftedOne]
  decide

/-- With its exponent in full the number is a one. -/
theorem not_denotes_shiftedOne : ¬(shiftedOne 655360).Denotes
    (fun digits ↦ Nat.ofDigitChars 10 digits 0) (.double ⟨false, 0, by decide⟩) := by
  rintro (_ | ⟨-, -, -, hnearest⟩)
  have hone : Binary64.magnitudeOfDecimal ⟨1, 0⟩ = 0 := by
    rw [← Binary64.magnitudeOfDecimal_eq_iff, decimalWith_shiftedOne] at hnearest
    exact hnearest
  exact absurd hone (by decide +kernel)

/-- A source in which a number of the value one is written with an exponent of six digits. -/
def cutOffSource : String := String.ofList (echoOf (shiftedOneText 655360))

/-- The source is read, but as a zero, so were exponents taken in full it would not consist of the
tokens that are read. -/
theorem exponents_are_cut_off : ∃ tokens, tokenize cutOffSource = .ok tokens ∧
    ¬IsDecomposition (fun digits ↦ Nat.ofDigitChars 10 digits 0) cutOffSource.toList tokens := by
  obtain ⟨token, tokens, hscans, htoken, hkind, hslice⟩ :=
    scans_echoOf (written_shiftedOne 655360) denotes_shiftedOne
  rw [cutOffSource, String.toList_ofList]
  refine ⟨tokens, tokenize_eq_ok_iff_scans.mpr (by rwa [String.toList_ofList]), fun h ↦ ?_⟩
  exact not_denotes_shiftedOne
    (denotes_of_isDecomposition h htoken hkind hslice (written_shiftedOne 655360))

end TagTemplate
