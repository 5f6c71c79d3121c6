import TagTemplate.Proofs.Token.Scan

/-!
# Kinds of tokens, wherever they stand

What a token is does not depend on the place that it has been found in, and neither does what comes
behind it. `Lexes` forgets the places: characters consist of tokens of the given kinds, whatever
comes before them. So tokens can be put together piece by piece, from the last to the first
(`Lexes.piece`), with as many blanks inside tags as one likes (`Lexes.blanks`).

A source that has been scanned at one place can be scanned at any other (`Scans.lexes`), which is
what is needed to put sources together.
-/

namespace TagTemplate

/-- The kinds of the tokens that the given characters consist of, wherever they stand. -/
def Lexes (mode : Mode) (cs : List Char) (kinds : List TokenKind) : Prop :=
  ∀ p, ∃ tokens, Scans Exponent.size p mode cs tokens ∧ tokens.map Token.kind = kinds

/-- Whether there are only blanks, as many as one likes. -/
def IsBlanks (cs : List Char) : Prop := ∀ c ∈ cs, isBlank c = true

theorem isBlanks_nil : IsBlanks [] := List.forall_mem_nil _

theorem isBlanks_singleton {c : Char} (h : isBlank c = true) : IsBlanks [c] :=
  List.forall_mem_singleton.mpr h

theorem isBlanks_space : IsBlanks [' '] := isBlanks_singleton rfl

namespace Lexes

variable {mode : Mode} {cs : List Char} {kinds : List TokenKind}

theorem endOfInput : Lexes .text [] [.endOfInput] := fun p ↦ ⟨_, .endOfInput p, rfl⟩

theorem token {gap written : List Char} {kind : TokenKind} (hgap : mode.Gap gap)
    (hpiece : IsPiece Exponent.size mode kind written cs) (hkind : kind ≠ .endOfInput)
    (h : Lexes kind.mode cs kinds) : Lexes mode (gap ++ (written ++ cs)) (kind :: kinds) := by
  intro p
  obtain ⟨tokens, hscans, rfl⟩ := h ((p.after gap).after written)
  exact ⟨_, .token hgap hkind hpiece hscans, rfl⟩

theorem piece (written : List Char) {kind : TokenKind}
    (hpiece : IsPiece Exponent.size mode kind written cs) (hkind : kind ≠ .endOfInput)
    (h : Lexes kind.mode cs kinds) : Lexes mode (written ++ cs) (kind :: kinds) := by
  have hgap : mode.Gap [] := ⟨by simp, fun _ ↦ rfl⟩
  exact token hgap hpiece hkind h

/-- Blanks inside a tag come before the next token. -/
theorem blanks {gap : List Char} (hgap : IsBlanks gap) (hmode : mode ≠ .text)
    (h : Lexes mode cs kinds) : Lexes mode (gap ++ cs) kinds := by
  intro p
  obtain ⟨tokens, hscans, rfl⟩ := h (p.after gap)
  refine ⟨tokens, ?_, rfl⟩
  cases hscans with
  | endOfInput => exact absurd rfl hmode
  | @token _ _ gap' written rest _ _ hgap' hkind hpiece hscans =>
    have hboth : mode.Gap (gap ++ gap') :=
      ⟨List.forall_mem_append.mpr ⟨hgap, hgap'.isBlank⟩, fun h ↦ absurd h hmode⟩
    rw [← p.after_append gap gap'] at hscans ⊢
    rw [← List.append_assoc]
    exact .token hboth hkind hpiece hscans

theorem blank {c : Char} (hc : isBlank c = true) (h : Lexes .body cs kinds) :
    Lexes .body (c :: cs) kinds :=
  blanks (isBlanks_singleton hc) Mode.noConfusion h

theorem tagEnd (h : Lexes .text cs kinds) : Lexes .body ('$' :: '}' :: cs) (.tagEnd :: kinds) :=
  piece ['$', '}'] ⟨.tagEnd nofun, .tagEnd, trivial⟩ nofun h

end Lexes

/-- What has been scanned somewhere can be scanned anywhere, as tokens of the same kinds. -/
theorem Scans.lexes {p : Position} {mode : Mode} {cs : List Char} {tokens : List Token}
    (h : Scans Exponent.size p mode cs tokens) : Lexes mode cs (tokens.map Token.kind) := by
  induction h with
  | endOfInput p => exact Lexes.endOfInput
  | token hgap hkind hpiece _ ih => exact ih.token hgap hpiece hkind

theorem exists_tokenize_of_lexes {source : String} {kinds : List TokenKind}
    (h : Lexes .text source.toList kinds) :
    ∃ tokens, tokenize source = .ok tokens ∧ tokens.map Token.kind = kinds := by
  obtain ⟨tokens, hscans, hkinds⟩ := h .origin
  exact ⟨tokens, tokenize_eq_ok_iff_scans.mpr hscans, hkinds⟩

end TagTemplate
