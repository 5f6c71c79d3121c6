import Mathlib.Algebra.Group.Nat.Even
import Mathlib.Data.List.DropRight
import TagTemplate.Proofs.Token.Lexing

/-!
# Sources side by side

A source that has tokens can be continued with another one that has tokens, and the tokens of the
two are those of the whole (`Scans.lexes_append`), with two exceptions at the seam. A text at the
end of the first and a text at the beginning of the second are one text (`TokenKind.join`). And an
open brace at the end of the first makes an opening of a tag with a dollar sign at the beginning of
the second, unless it is protected (`EndsInOpenBrace`), so that is where the source must not be
split.

No other token reaches across the seam, for the first source ends between tags. Within a tag there
is still a dollar sign to come (`Scans.dollar_mem`), and that is why even a number, which may have
to be looked at far beyond its end, has ended before the seam (`IsPiece.append`).
-/

namespace TagTemplate

/-! ## Lists whose ends are merged -/

section JoinEnds

variable {α : Type} (merge? : α → α → Option α)

/-- Two lists one after the other, with the last item of the first and the first item of the second
merged into one, if they can be. -/
def joinEnds : List α → List α → List α
  | [], ys => ys
  | [x], y :: ys =>
    match merge? x y with
    | some z => z :: ys
    | none => x :: y :: ys
  | x :: xs, ys => x :: joinEnds xs ys

variable {merge?}

theorem joinEnds_cons {x : α} {xs ys : List α}
    (h : xs = [] → ∀ y ∈ ys.head?, merge? x y = none) :
    joinEnds merge? (x :: xs) ys = x :: joinEnds merge? xs ys := by
  cases xs with
  | nil =>
    cases ys with
    | nil => rfl
    | cons y ys => simp [joinEnds, h rfl y rfl]
  | cons x' xs =>
    rw [joinEnds.eq_3]
    simp

theorem joinEnds_append {x : α} (hx : ∀ y, merge? x y = none) (xs xs' ys : List α) :
    joinEnds merge? (xs ++ x :: xs') ys = xs ++ x :: joinEnds merge? xs' ys := by
  induction xs with
  | nil => exact joinEnds_cons fun _ y _ ↦ hx y
  | cons x' xs ih => rw [List.cons_append, joinEnds_cons (by simp), ih, List.cons_append]

@[simp] theorem joinEnds_nil (xs : List α) : joinEnds merge? xs [] = xs := by
  induction xs with
  | nil => rfl
  | cons x xs ih => rw [joinEnds_cons (by simp), ih]

theorem joinEnds_append_right {y : α} (hy : ∀ x, merge? x y = none) (xs ys ys' : List α) :
    joinEnds merge? xs (ys ++ y :: ys') = joinEnds merge? xs ys ++ y :: ys' := by
  fun_induction joinEnds merge? xs ys with
  | case1 ys => rfl
  | case2 x y' ys z hz => simp [joinEnds, hz]
  | case3 x y' ys hz => simp [joinEnds, hz]
  | case4 x xs ys hends ih =>
    cases xs with
    | nil =>
      -- The second list is empty, or its first item would have been looked at.
      cases ys with
      | nil =>
        rw [List.nil_append, joinEnds_cons fun _ y hy' ↦ ?_]
        · rfl
        · obtain rfl := Option.some.inj hy'
          exact hy x
      | cons y' ys => exact absurd rfl (hends y' ys rfl)
    | cons x' xs =>
      rw [joinEnds_cons (by simp), ih, List.cons_append]

end JoinEnds

/-! ## Tokens -/

namespace TokenKind

/-- The text that two texts are together. -/
def merge? : TokenKind → TokenKind → Option TokenKind
  | text content, text content' => some (text (content ++ content'))
  | _, _ => none

/-- The kinds of the tokens of two sources side by side: a text at the end of the first and one at
the beginning of the second are one. -/
def join (kinds more : List TokenKind) : List TokenKind := joinEnds merge? kinds more

theorem merge?_eq_none {kind : TokenKind} (h : ∀ content, kind ≠ text content)
    (before : TokenKind) : merge? before kind = none := by
  unfold merge?
  split
  · exact absurd rfl (h _)
  · rfl

theorem join_append {kind : TokenKind} (h : ∀ content, kind ≠ text content)
    (kinds more more' : List TokenKind) :
    join kinds (more ++ kind :: more') = join kinds more ++ kind :: more' :=
  joinEnds_append_right (merge?_eq_none h) kinds more more'

theorem join_of_head_ne_text {kinds more : List TokenKind}
    (h : ∀ content, more.head? ≠ some (text content)) : join kinds more = kinds ++ more := by
  have hnil : join kinds [] = kinds := joinEnds_nil kinds
  cases more with
  | nil => rw [hnil, List.append_nil]
  | cons kind more =>
    have hkind : ∀ content, kind ≠ text content := fun content heq ↦ h content (congrArg some heq)
    have hjoin := join_append hkind kinds [] more
    rwa [List.nil_append, hnil] at hjoin

end TokenKind

/-! ## Backslashes before the seam -/

/-- Whether the backslashes at the end are an even number, so that they protect each other and not
what comes behind them. -/
def EvenBackslashes (cs : List Char) : Prop := Even (cs.rtakeWhile (· == '\\')).length

/-- Whether there is a brace at the end that is not protected. -/
def EndsInOpenBrace (cs : List Char) : Prop :=
  ∃ before, cs = before ++ ['{'] ∧ EvenBackslashes before

theorem evenBackslashes_nil : EvenBackslashes [] := Even.zero

theorem evenBackslashes_concat {c : Char} (hc : c ≠ '\\') (cs : List Char) :
    EvenBackslashes (cs ++ [c]) := by
  rw [EvenBackslashes, List.rtakeWhile_concat_neg _ _ _ (by simpa using hc)]
  exact Even.zero

theorem evenBackslashes_backslash_iff {cs : List Char} :
    EvenBackslashes (cs ++ ['\\']) ↔ ¬EvenBackslashes cs := by
  have hlast : (cs ++ ['\\']).rtakeWhile (· == '\\') = cs.rtakeWhile (· == '\\') ++ ['\\'] :=
    List.rtakeWhile_concat_pos _ _ _ rfl
  rw [EvenBackslashes, hlast, List.length_append, List.length_singleton, Nat.even_add_one]
  rfl

theorem evenBackslashes_of_ne {cs : List Char} (h : ∀ c ∈ cs, c ≠ '\\') : EvenBackslashes cs := by
  rcases List.eq_nil_or_concat' cs with rfl | ⟨cs, c, rfl⟩
  · exact evenBackslashes_nil
  · exact evenBackslashes_concat (h c (by simp)) cs

/-- What backslashes protect is seen behind the last place where nothing is protected. -/
theorem evenBackslashes_append_iff {cs : List Char} (h : EvenBackslashes cs) (ds : List Char) :
    EvenBackslashes (cs ++ ds) ↔ EvenBackslashes ds := by
  induction ds using List.reverseRecOn with
  | nil =>
    rw [List.append_nil]
    exact iff_of_true h evenBackslashes_nil
  | append_singleton ds d ih =>
    rw [← List.append_assoc]
    by_cases hd : d = '\\'
    · subst hd
      rw [evenBackslashes_backslash_iff, evenBackslashes_backslash_iff, ih]
    · exact iff_of_true (evenBackslashes_concat hd _) (evenBackslashes_concat hd _)

theorem Escaping.Written.evenBackslashes {e : Escaping} {content written : List Char}
    (h : e.Written content written) : EvenBackslashes written := by
  induction h with
  | nil => exact evenBackslashes_nil
  | @plain c _ written hc _ ih =>
    have hfirst : EvenBackslashes [c] := evenBackslashes_concat hc []
    exact (evenBackslashes_append_iff hfirst written).mpr ih
  | @escaped c _ written _ _ ih =>
    have hfirst : EvenBackslashes ['\\', c] := by
      by_cases hc : c = '\\'
      · subst hc
        have hone : ¬EvenBackslashes ([] ++ ['\\']) := fun hone ↦
          evenBackslashes_backslash_iff.mp hone evenBackslashes_nil
        exact evenBackslashes_backslash_iff.mpr hone
      · exact evenBackslashes_concat hc ['\\']
    exact (evenBackslashes_append_iff hfirst written).mpr ih

theorem IsName.evenBackslashes {name : List Char} (h : IsName name) : EvenBackslashes name :=
  evenBackslashes_of_ne fun c hc ↦ by
    rintro rfl
    exact absurd (h.isNameChar _ hc) (by decide)

/-- No token protects what comes behind it. -/
theorem Spelled.evenBackslashes {size : List Char → ℕ} {kind : TokenKind} {written : List Char}
    (h : Spelled size kind written) : EvenBackslashes written := by
  cases h with
  | endOfInput => exact evenBackslashes_nil
  | text _ hwritten => exact hwritten.evenBackslashes
  | tagStart => exact evenBackslashes_concat (by decide) ['{']
  | tagEnd => exact evenBackslashes_concat (by decide) ['$']
  | tagHead hname => exact hname.evenBackslashes
  | equalsSign => exact evenBackslashes_concat (by decide) []
  | variableName hname => exact hname.evenBackslashes
  | @functionName name hname =>
    have hat : EvenBackslashes ['@'] := evenBackslashes_concat (by decide) []
    exact (evenBackslashes_append_iff hat name).mpr hname.evenBackslashes
  | operator op => exact evenBackslashes_concat (by cases op <;> decide) []
  | @string _ written _ _ => exact evenBackslashes_concat (by decide) ('"' :: written)
  | number hwritten _ =>
    refine evenBackslashes_of_ne fun c hc ↦ ?_
    rintro rfl
    exact absurd (hwritten.isNumeralChar _ hc) (by decide)

theorem Mode.Gap.evenBackslashes {mode : Mode} {gap : List Char} (h : mode.Gap gap) :
    EvenBackslashes gap :=
  evenBackslashes_of_ne fun c hc ↦ by
    rintro rfl
    exact absurd (h.isBlank _ hc) (by decide)

/-- A brace that is not protected is so behind whatever protects nothing. -/
theorem EndsInOpenBrace.append {ds : List Char} (h : EndsInOpenBrace ds) {cs : List Char}
    (hcs : EvenBackslashes cs) : EndsInOpenBrace (cs ++ ds) := by
  obtain ⟨before, rfl, hbefore⟩ := h
  refine ⟨cs ++ before, (List.append_assoc _ _ _).symm, ?_⟩
  exact (evenBackslashes_append_iff hcs before).mpr hbefore

/-! ## Tokens before the seam -/

theorem Numeral.Longest.append {written rest : List Char} (h : Longest written rest)
    (hrest : '$' ∈ rest) (more : List Char) : Longest written (rest ++ more) := by
  intro longer hne hprefix n hn
  rcases List.prefix_or_prefix_of_prefix hprefix (List.prefix_append rest more) with hwithin | hall
  · exact h longer hne hwithin n hn
  · -- A literal that reaches across the seam would have a dollar sign in it.
    have hdollar := hn.isNumeralChar '$' (List.mem_append_right _ (hall.subset hrest))
    exact absurd hdollar (by decide)

theorem Scans.dollar_mem {size : List Char → ℕ} {p : Position} {mode : Mode} {cs : List Char}
    {tokens : List Token} (h : Scans size p mode cs tokens) (hmode : mode ≠ .text) : '$' ∈ cs := by
  induction h with
  | endOfInput p => exact absurd rfl hmode
  | @token p mode gap written rest kind tokens hgap hkind hpiece _ ih =>
    have hinner : kind.mode ≠ .text → '$' ∈ gap ++ (written ++ rest) := fun hkindMode ↦
      List.mem_append_right _ (List.mem_append_right _ (ih hkindMode))
    cases hpiece.admits with
    | text _ => exact absurd rfl hmode
    | endOfInput => exact absurd rfl hmode
    | tagStart => exact absurd rfl hmode
    | tagHead _ => exact hinner nofun
    | headElement _ => exact hinner nofun
    | bodyElement _ => exact hinner nofun
    | tagEnd _ =>
      cases hpiece.spelled with
      | tagEnd => simp

/-- A token that has ended before the seam does not reach across it. -/
theorem IsPiece.append {size : List Char → ℕ} {mode : Mode} {kind : TokenKind}
    {written rest : List Char} (h : IsPiece size mode kind written rest)
    (hkind : kind ≠ .endOfInput) (hrest : rest ≠ []) (hdollar : kind.mode ≠ .text → '$' ∈ rest)
    (more : List Char) : IsPiece size mode kind written (rest ++ more) := by
  refine ⟨h.admits, h.spelled, ?_⟩
  have hends := h.ends
  have hhead : (rest ++ more).head? = rest.head? := List.head?_append_of_ne_nil _ hrest
  cases kind with
  | endOfInput => exact absurd rfl hkind
  | text content =>
    obtain ⟨hopens, hunclosed⟩ := hends
    refine ⟨Or.inr (Escaping.opensTag_append_right (hopens.resolve_left hrest) more), ?_⟩
    intro before behind heq hne hbefore
    exact (Escaping.opensTag_append hne hrest more).trans (hunclosed before behind heq hne hbefore)
  | tagStart => exact trivial
  | tagEnd => exact trivial
  | tagHead name => exact hends.imp_right fun h c hc ↦ h c (hhead ▸ hc)
  | element e =>
    cases e with
    | integer _ => exact Numeral.Longest.append hends (hdollar nofun) more
    | double _ => exact Numeral.Longest.append hends (hdollar nofun) more
    | string _ => exact trivial
    | variableName _ => exact fun c hc ↦ hends c (hhead ▸ hc)
    | functionName _ => exact fun c hc ↦ hends c (hhead ▸ hc)
    | operator _ => exact fun hsub c hc ↦ hends hsub c (hhead ▸ hc)

/-! ## The last token before the seam -/

theorem Escaping.Unclosed.append_right {written cs : List Char}
    (h : Escaping.documentText.Unclosed written [])
    (hseam : ¬(EndsInOpenBrace written ∧ cs.head? = some '$')) :
    Escaping.documentText.Unclosed written cs := by
  rintro before behind rfl hne ⟨content, hbefore⟩
  obtain ⟨c, behind, rfl⟩ := List.exists_cons_of_ne_nil hne
  refine Bool.eq_false_iff.mpr fun hopens ↦ ?_
  obtain ⟨rfl, hdollar⟩ := Escaping.opensTag_cons_iff.mp hopens
  cases behind with
  | nil => exact hseam ⟨⟨before, rfl, hbefore.evenBackslashes⟩, hdollar⟩
  | cons d behind =>
    -- The tag would have been opened before the seam.
    have hopened : Escaping.opensTag ('{' :: d :: behind ++ []) = true :=
      Escaping.opensTag_cons_iff.mpr ⟨rfl, hdollar⟩
    exact absurd hopened (Bool.eq_false_iff.mp (h before _ rfl hne ⟨content, hbefore⟩))

/-- A text at the end of a source is one with the text that the next source begins with, if it
begins with one. -/
theorem Lexes.text_append {content : String} {written cs : List Char} {kinds : List TokenKind}
    (hpiece : IsPiece Exponent.size .text (.text content) written [])
    (hseam : ¬(EndsInOpenBrace written ∧ cs.head? = some '$')) (h : Lexes .text cs kinds) :
    Lexes .text (written ++ cs) (TokenKind.join [.text content] kinds) := by
  have hopen := hpiece.ends.2.append_right hseam
  obtain ⟨tokens, hscans, rfl⟩ := h .origin
  cases hscans with
  | endOfInput p => exact Lexes.piece written hpiece nofun .endOfInput
  | @token _ _ gap written' rest kind tokens hgap hkind hpiece' hscans =>
    obtain rfl := hgap.eq_nil rfl
    rw [List.nil_append]
    cases hpiece'.admits with
    | endOfInput => exact absurd rfl hkind
    | tagEnd hmode => exact absurd rfl hmode
    | tagStart =>
      have hopens : Escaping.opensTag (written' ++ rest) = true := by
        cases hpiece'.spelled with
        | tagStart => rfl
      refine Lexes.piece written ⟨hpiece.admits, hpiece.spelled, Or.inr hopens, hopen⟩ nofun ?_
      exact Lexes.piece written' hpiece' nofun hscans.lexes
    | text content' =>
      have hspelled :
          Spelled Exponent.size (.text (content ++ content')) (written ++ written') := by
        cases hpiece.spelled with
        | text hne hwritten =>
          cases hpiece'.spelled with
          | text hne' hwritten' =>
            rw [← String.ofList_append]
            exact .text (List.append_ne_nil_of_left_ne_nil hne _) (hwritten.append hwritten')
      have hboth : Escaping.documentText.Unclosed (written ++ written') rest := by
        cases hpiece.spelled with
        | text _ hwritten => exact Escaping.Unclosed.append hwritten hopen hpiece'.ends.2
      rw [← List.append_assoc]
      exact Lexes.piece _ ⟨.text _, hspelled, hpiece'.ends.1, hboth⟩ nofun hscans.lexes

theorem Lexes.last_append {mode : Mode} {kind : TokenKind} {gap written cs : List Char}
    {kinds : List TokenKind} (hgap : mode.Gap gap) (hkind : kind ≠ .endOfInput)
    (hpiece : IsPiece Exponent.size mode kind written []) (hmode : kind.mode = .text)
    (hseam : ¬(EndsInOpenBrace written ∧ cs.head? = some '$')) (h : Lexes .text cs kinds) :
    Lexes mode (gap ++ (written ++ cs)) (TokenKind.join [kind] kinds) := by
  cases kind with
  | endOfInput => exact absurd rfl hkind
  | tagStart => contradiction
  | tagHead _ => contradiction
  | element _ => contradiction
  | tagEnd =>
    have hends : IsPiece Exponent.size mode .tagEnd written cs :=
      ⟨hpiece.admits, hpiece.spelled, trivial⟩
    rw [TokenKind.join, joinEnds_cons fun _ _ _ ↦ rfl]
    exact Lexes.token hgap hends hkind h
  | text content =>
    obtain rfl : mode = .text := by
      cases hpiece.admits
      rfl
    obtain rfl := hgap.eq_nil rfl
    rw [List.nil_append]
    exact Lexes.text_append hpiece hseam h

/-! ## All tokens -/

theorem Scans.eq_nil {p : Position} {mode : Mode} {cs : List Char} {tokens : List Token}
    (h : Scans Exponent.size p mode cs tokens) (hkinds : tokens.map Token.kind = [.endOfInput]) :
    cs = [] := by
  cases h with
  | endOfInput p => rfl
  | token _ hkind _ _ => exact absurd (List.cons.inj hkinds).1 hkind

private theorem Scans.of_nil {p : Position} {mode : Mode} {tokens : List Token}
    (h : Scans Exponent.size p mode [] tokens) :
    mode = .text ∧ tokens.map Token.kind = [.endOfInput] := by
  generalize hcs : ([] : List Char) = cs at h
  cases h with
  | endOfInput p => exact ⟨rfl, rfl⟩
  | token _ hkind hpiece _ =>
    have hwritten := (List.append_eq_nil_iff.mp (List.append_eq_nil_iff.mp hcs.symm).2).1
    exact absurd hwritten (hpiece.spelled.ne_nil hkind)

/-- **Sources side by side.** A source that has tokens, followed by one that has, has the tokens of
both, unless an opening of a tag comes of the two. -/
theorem Scans.lexes_append {p : Position} {mode : Mode} {cs ds : List Char} {tokens : List Token}
    {kinds more : List TokenKind} (h : Scans Exponent.size p mode cs tokens)
    (hkinds : tokens.map Token.kind = kinds ++ [.endOfInput]) (hds : Lexes .text ds more)
    (hseam : ¬(EndsInOpenBrace cs ∧ ds.head? = some '$')) :
    Lexes mode (cs ++ ds) (TokenKind.join kinds more) := by
  induction h generalizing kinds with
  | endOfInput p =>
    obtain rfl : kinds = [] := by simpa using hkinds
    exact hds
  | @token p mode gap written rest kind tokens hgap hkind hpiece hscans ih =>
    obtain ⟨kinds, rfl⟩ : ∃ kinds', kinds = kind :: kinds' := by
      cases kinds with
      | nil => exact absurd (List.cons.inj hkinds).1 hkind
      | cons kind' kinds =>
        obtain rfl : kind = kind' := (List.cons.inj hkinds).1
        exact ⟨kinds, rfl⟩
    have hkinds : tokens.map Token.kind = kinds ++ [.endOfInput] := (List.cons.inj hkinds).2
    rw [List.append_assoc, List.append_assoc]
    by_cases hrest : rest = []
    · subst hrest
      obtain ⟨hmode, hend⟩ := hscans.of_nil
      obtain rfl : kinds = [] := by simpa [hkinds] using hend
      have hseamLast : ¬(EndsInOpenBrace written ∧ ds.head? = some '$') := by
        rintro ⟨hopen, hdollar⟩
        have hbehind := hopen.append hgap.evenBackslashes
        exact hseam ⟨by rwa [List.append_nil], hdollar⟩
      exact Lexes.last_append hgap hkind hpiece hmode hseamLast hds
    · have hne : kinds ≠ [] := fun hnil ↦ hrest (hscans.eq_nil (by rw [hkinds, hnil]; rfl))
      have hends := hpiece.append hkind hrest hscans.dollar_mem ds
      have hseamRest : ¬(EndsInOpenBrace rest ∧ ds.head? = some '$') := by
        rintro ⟨hopen, hdollar⟩
        have hbehind := hopen.append hpiece.spelled.evenBackslashes
        exact hseam ⟨hbehind.append hgap.evenBackslashes, hdollar⟩
      have hmore := ih hkinds hseamRest
      rw [TokenKind.join, joinEnds_cons fun hnil ↦ absurd hnil hne]
      exact Lexes.token hgap hends hkind hmore

end TagTemplate
