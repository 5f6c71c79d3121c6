import TagTemplate.Proofs.Number.Literal

/-!
# Writing that shows where it ends

What is written one behind the other can only be told apart if it is seen where each piece ends. A
way of writing is self-delimiting when no piece can be continued to another one, or to itself, by
what comes behind it (`SelfDelimiting`). There are two reasons for that in listings: a piece may be
a run of characters of one class, with a character behind it that is not in the class
(`eq_and_eq_of_append_eq`), or it may be made of pieces that are self-delimiting, with something
behind them that begins none (`SelfDelimiting.flatMap_append_inj`). Pieces may also have a separator
between them, if it is not what stands at the end (`SelfDelimiting.intercalate`).
-/

namespace TagTemplate

variable {α : Type}

/-- Whether things that satisfy a condition are known by what they are written as, and so is what
stands behind them. -/
def SelfDelimiting (P : α → Prop) (written : α → List Char) : Prop :=
  ∀ ⦃a b : α⦄ ⦃r s : List Char⦄, P a → P b → written a ++ r = written b ++ s → a = b ∧ r = s

theorem eq_and_eq_of_append_eq {p : Char → Bool} {as bs r s : List Char}
    (has : ∀ c ∈ as, p c = true) (hbs : ∀ c ∈ bs, p c = true) (hr : ∀ c ∈ r.head?, p c = false)
    (hs : ∀ c ∈ s.head?, p c = false) (h : as ++ r = bs ++ s) : as = bs ∧ r = s := by
  constructor
  · have htake := congrArg (List.takeWhile p) h
    rwa [takeWhile_append_of_stops has hr, takeWhile_append_of_stops hbs hs] at htake
  · have hdrop := congrArg (List.dropWhile p) h
    rwa [dropWhile_append_of_stops has hr, dropWhile_append_of_stops hbs hs] at hdrop

theorem eq_and_eq_of_append_cons_eq {p : Char → Bool} {stop : Char} {as bs r s : List Char}
    (has : ∀ c ∈ as, p c = true) (hbs : ∀ c ∈ bs, p c = true) (hstop : p stop = false)
    (h : as ++ stop :: r = bs ++ stop :: s) : as = bs ∧ r = s := by
  obtain ⟨hruns, hrest⟩ := eq_and_eq_of_append_eq has hbs (forall_mem_head?_cons.mpr hstop)
    (forall_mem_head?_cons.mpr hstop) h
  exact ⟨hruns, (List.cons.inj hrest).2⟩

theorem intercalate_cons_eq_flatMap (separator : Char) (cs : List Char) (css : List (List Char)) :
    [separator].intercalate (cs :: css) = cs ++ css.flatMap (separator :: ·) := by
  induction css generalizing cs with
  | nil => simp [List.intercalate]
  | cons ds css ih =>
    rw [List.intercalate_cons_cons, ih, List.flatMap_cons, List.append_assoc]
    rfl

namespace SelfDelimiting

variable {P : α → Prop} {written : α → List Char}

theorem inj (h : SelfDelimiting P written) {a b : α} (ha : P a) (hb : P b)
    (heq : written a = written b) : a = b := by
  have happend : written a ++ [] = written b ++ [] := by rw [heq]
  exact (h ha hb happend).1

/-- Things that are self-delimiting can be written one behind the other, if none of them begins what
stands behind the last. -/
theorem flatMap_append_inj (h : SelfDelimiting P written) {r s : List Char}
    (hr : ∀ a t, P a → written a ++ t ≠ r) (hs : ∀ a t, P a → written a ++ t ≠ s) {as bs : List α}
    (has : ∀ a ∈ as, P a) (hbs : ∀ b ∈ bs, P b)
    (heq : as.flatMap written ++ r = bs.flatMap written ++ s) : as = bs ∧ r = s := by
  induction as generalizing bs with
  | nil =>
    cases bs with
    | nil => exact ⟨rfl, heq⟩
    | cons b bs =>
      rw [List.flatMap_cons, List.append_assoc] at heq
      exact absurd heq.symm (hr b _ (hbs b List.mem_cons_self))
  | cons a as ih =>
    rw [List.forall_mem_cons] at has
    rw [List.flatMap_cons, List.append_assoc] at heq
    cases bs with
    | nil => exact absurd heq (hs a _ has.1)
    | cons b bs =>
      rw [List.forall_mem_cons] at hbs
      rw [List.flatMap_cons, List.append_assoc] at heq
      obtain ⟨rfl, hrest⟩ := h has.1 hbs.1 heq
      obtain ⟨rfl, hrs⟩ := ih has.2 hbs.2 hrest
      exact ⟨rfl, hrs⟩

theorem flatMap_inj (h : SelfDelimiting P written) (hne : ∀ a, P a → written a ≠ [])
    {as bs : List α} (has : ∀ a ∈ as, P a) (hbs : ∀ b ∈ bs, P b)
    (heq : as.flatMap written = bs.flatMap written) : as = bs := by
  have hnil : ∀ a t, P a → written a ++ t ≠ [] := fun a t ha ↦
    List.append_ne_nil_of_left_ne_nil (hne a ha) t
  have happend : as.flatMap written ++ [] = bs.flatMap written ++ [] := by rw [heq]
  exact (h.flatMap_append_inj hnil hnil has hbs happend).1

theorem intercalate (h : SelfDelimiting P written) {separator stop : Char}
    (hne : separator ≠ stop) :
    SelfDelimiting (fun as : List α ↦ as ≠ [] ∧ ∀ a ∈ as, P a)
      fun as ↦ [separator].intercalate (as.map written) ++ [stop] := by
  have hwritten : SelfDelimiting P fun a ↦ separator :: written a := fun a b r s ha hb heq ↦
    h ha hb (List.cons.inj heq).2
  have hstop : ∀ (rest : List Char) a t, P a → (separator :: written a) ++ t ≠ stop :: rest :=
    fun rest a t _ heq ↦ hne (List.cons.inj heq).1
  rintro as bs r s ⟨has, hPas⟩ ⟨hbs, hPbs⟩ heq
  obtain ⟨a, as, rfl⟩ := List.exists_cons_of_ne_nil has
  obtain ⟨b, bs, rfl⟩ := List.exists_cons_of_ne_nil hbs
  rw [List.forall_mem_cons] at hPas hPbs
  simp only [List.map_cons, intercalate_cons_eq_flatMap, List.flatMap_map, List.append_assoc]
    at heq
  obtain ⟨rfl, hrest⟩ := h hPas.1 hPbs.1 heq
  obtain ⟨rfl, hend⟩ := hwritten.flatMap_append_inj (hstop r) (hstop s) hPas.2 hPbs.2 hrest
  exact ⟨rfl, (List.cons.inj hend).2⟩

end SelfDelimiting

end TagTemplate
