import Mathlib.Data.Nat.Notation
import TagTemplate.Text.Escaping

/-!
# Runs of escaped text

How a text may be written behind backslashes is a relation (`Escaping.Written`), since characters
that need no backslash may have one: a writer has a choice where a reader has none. What is
written ends only where it may, which is the second relation: nothing before its end closes the
run, unless a backslash protects it (`Escaping.Unclosed`).

The reader of runs is exact for the two. It reads what is so written
(`Escaping.read_of_written`), and it reads nothing else (`Escaping.exists_written_of_read`), not
even up to a bad escape (`Escaping.exists_written_of_badEscape`). What the writer writes is one of
the ways (`Escaping.written_escape`, `Escaping.unclosed_escape`).
-/

namespace TagTemplate.Escaping

/-! ## Text between tags -/

theorem escapable_documentText_iff {c : Char} :
    documentText.escapable c = true ↔ c = '{' ∨ c = '\\' := by
  simp [documentText]

theorem opensTag_cons_iff {c : Char} {cs : List Char} :
    opensTag (c :: cs) = true ↔ c = '{' ∧ cs.head? = some '$' := by
  unfold opensTag
  split
  · rename_i heq
    obtain ⟨rfl, rfl⟩ := List.cons.inj heq
    exact iff_of_true rfl ⟨rfl, rfl⟩
  · rename_i hne
    refine iff_of_false Bool.false_ne_true ?_
    rintro ⟨rfl, hhead⟩
    obtain ⟨more, rfl⟩ := List.head?_eq_some_iff.mp hhead
    exact hne more rfl

theorem opensTag_append_right {cs : List Char} (h : opensTag cs = true) (more : List Char) :
    opensTag (cs ++ more) = true := by
  unfold opensTag at h
  split at h
  · rfl
  · contradiction

/-- Whether a tag is opened is seen at the first two characters. -/
theorem opensTag_append {behind rest : List Char} (hbehind : behind ≠ []) (hrest : rest ≠ [])
    (more : List Char) : opensTag (behind ++ (rest ++ more)) = opensTag (behind ++ rest) := by
  obtain ⟨c, behind, rfl⟩ := List.exists_cons_of_ne_nil hbehind
  obtain ⟨d, rest, rfl⟩ := List.exists_cons_of_ne_nil hrest
  have hhead : (behind ++ (d :: rest ++ more)).head? = (behind ++ d :: rest).head? := by
    cases behind <;> rfl
  show opensTag (c :: (behind ++ (d :: rest ++ more))) = opensTag (c :: (behind ++ d :: rest))
  rw [Bool.eq_iff_iff, opensTag_cons_iff, opensTag_cons_iff, hhead]

variable (e : Escaping)

/-! ## How text is written -/

/-- The ways in which a text may be written: each of its characters as it is, unless it is a
backslash, or behind a backslash, if it may stand there. -/
inductive Written : List Char → List Char → Prop
  | nil : Written [] []
  | plain {c : Char} {content written : List Char} : c ≠ '\\' → Written content written →
    Written (c :: content) (c :: written)
  | escaped {c : Char} {content written : List Char} : e.escapable c = true →
    Written content written → Written (c :: content) ('\\' :: c :: written)

/-- Whether a run that goes on with `rest` is not over within what is written: wherever what comes
before is written in full, what comes behind does not close it. -/
def Unclosed (written rest : List Char) : Prop :=
  ∀ before behind, written = before ++ behind → behind ≠ [] →
    (∃ content, e.Written content before) → e.closes (behind ++ rest) = false

variable {e}

theorem unclosed_nil (rest : List Char) : e.Unclosed [] rest := by
  intro before behind heq hne
  exact absurd (List.append_eq_nil_iff.mp heq.symm).2 hne

theorem unclosed_plain_iff {c : Char} {written rest : List Char} (hc : c ≠ '\\') :
    e.Unclosed (c :: written) rest ↔
      e.closes (c :: (written ++ rest)) = false ∧ e.Unclosed written rest := by
  constructor
  · intro h
    refine ⟨h [] (c :: written) rfl (List.cons_ne_nil _ _) ⟨[], .nil⟩, ?_⟩
    rintro before behind rfl hne ⟨content, hbefore⟩
    exact h (c :: before) behind rfl hne ⟨c :: content, .plain hc hbefore⟩
  · rintro ⟨hclose, h⟩ before behind heq hne ⟨content, hbefore⟩
    cases hbefore with
    | nil =>
      obtain rfl : c :: written = behind := heq
      exact hclose
    | plain _ hbefore =>
      rw [List.cons_append, List.cons.injEq] at heq
      exact h _ behind heq.2 hne ⟨_, hbefore⟩
    | escaped _ _ =>
      rw [List.cons_append, List.cons.injEq] at heq
      exact absurd heq.1 hc

theorem unclosed_escaped_iff {c : Char} {written rest : List Char} (hc : e.escapable c = true) :
    e.Unclosed ('\\' :: c :: written) rest ↔ e.Unclosed written rest := by
  constructor
  · rintro h before behind rfl hne ⟨content, hbefore⟩
    exact h ('\\' :: c :: before) behind rfl hne ⟨c :: content, .escaped hc hbefore⟩
  · rintro h before behind heq hne ⟨content, hbefore⟩
    cases hbefore with
    | nil =>
      obtain rfl : '\\' :: c :: written = behind := heq
      exact e.closes_backslash _
    -- The backslash alone is not written in full, so its character is never behind.
    | plain hd _ =>
      rw [List.cons_append, List.cons.injEq] at heq
      exact absurd heq.1.symm hd
    | escaped _ hbefore =>
      rw [List.cons_append, List.cons_append, List.cons.injEq, List.cons.injEq] at heq
      exact h _ behind heq.2.2 hne ⟨_, hbefore⟩

/-! ## Runs side by side -/

theorem Written.append {content written content' written' : List Char}
    (h : e.Written content written) (h' : e.Written content' written') :
    e.Written (content ++ content') (written ++ written') := by
  induction h with
  | nil => exact h'
  | plain hc _ ih => exact .plain hc ih
  | escaped hc _ ih => exact .escaped hc ih

theorem Unclosed.append {content written written' rest : List Char}
    (h : e.Written content written) (hopen : e.Unclosed written (written' ++ rest))
    (hopen' : e.Unclosed written' rest) : e.Unclosed (written ++ written') rest := by
  induction h with
  | nil => exact hopen'
  | plain hc _ ih =>
    rw [unclosed_plain_iff hc] at hopen
    rw [List.cons_append, unclosed_plain_iff hc, List.append_assoc]
    exact ⟨hopen.1, ih hopen.2⟩
  | escaped hc _ ih =>
    rw [unclosed_escaped_iff hc] at hopen
    exact (unclosed_escaped_iff hc).mpr (ih hopen)

/-! ## The reader is exact -/

/-- The ending of a run that is followed by `rest`, when `rest` does end it. -/
def endingBefore (rest : List Char) : Ending := if rest = [] then .endOfInput else .closed

private theorem readFrom_closed {done : List Char} {width : ℕ} {rest : List Char}
    (h : rest = [] ∨ e.closes rest = true) :
    e.readFrom done width rest = ⟨done.reverse, width, endingBefore rest⟩ := by
  cases rest with
  | nil => rfl
  | cons c cs =>
    have hclosed : e.closes (c :: cs) = true := h.resolve_left (List.cons_ne_nil c cs)
    rw [readFrom.eq_def]
    exact if_pos hclosed

private theorem readFrom_of_written {content written rest : List Char}
    (h : e.Written content written) (hopen : e.Unclosed written rest)
    (hrest : rest = [] ∨ e.closes rest = true) (done : List Char) (width : ℕ) :
    e.readFrom done width (written ++ rest)
      = ⟨done.reverse ++ content, width + written.length, endingBefore rest⟩ := by
  induction h generalizing done width with
  | nil =>
    rw [List.nil_append, readFrom_closed hrest, List.append_nil, List.length_nil, Nat.add_zero]
  | @plain c content written hc _ ih =>
    rw [unclosed_plain_iff hc] at hopen
    rw [List.cons_append, readFrom.eq_def]
    simp only [hopen.1, hc, if_false, Bool.false_eq_true]
    rw [ih hopen.2, List.reverse_cons, List.append_assoc, List.singleton_append,
      List.length_cons, Nat.add_right_comm, Nat.add_assoc]
  | @escaped c content written hc _ ih =>
    rw [unclosed_escaped_iff hc] at hopen
    rw [List.cons_append, List.cons_append, readFrom.eq_def]
    simp only [e.closes_backslash, hc, if_true, if_false, Bool.false_eq_true]
    rw [ih hopen, List.reverse_cons, List.append_assoc, List.singleton_append]
    simp only [List.length_cons, Run.mk.injEq, true_and, and_true]
    omega

theorem read_of_written {content written rest : List Char} (h : e.Written content written)
    (hopen : e.Unclosed written rest) (hrest : rest = [] ∨ e.closes rest = true) :
    e.read (written ++ rest) = ⟨content, written.length, endingBefore rest⟩ := by
  have := readFrom_of_written h hopen hrest [] 0
  rwa [List.reverse_nil, List.nil_append, Nat.zero_add] at this

private theorem exists_written_of_readFrom (done : List Char) (width : ℕ) (cs : List Char)
    (h : ∀ next, (e.readFrom done width cs).ending ≠ .badEscape next) :
    ∃ content written rest, cs = written ++ rest ∧ e.Written content written ∧
      e.Unclosed written rest ∧ (rest = [] ∨ e.closes rest = true) ∧
      e.readFrom done width cs
        = ⟨done.reverse ++ content, width + written.length, endingBefore rest⟩ := by
  fun_induction readFrom e done width cs with
  | case1 done width =>
    exact ⟨[], [], [], rfl, .nil, unclosed_nil _, Or.inl rfl, by simp [endingBefore]⟩
  | case2 done width c cs hclose =>
    exact ⟨[], [], c :: cs, rfl, .nil, unclosed_nil _, Or.inr hclose, by simp [endingBefore]⟩
  | case3 done width hclose =>
    exact absurd rfl (h none)
  | case4 done width d ds hd hclose ih =>
    obtain ⟨content, written, rest, rfl, hwritten, hopen, hrest, heq⟩ := ih h
    refine ⟨d :: content, '\\' :: d :: written, rest, rfl, .escaped hd hwritten,
      (unclosed_escaped_iff hd).mpr hopen, hrest, ?_⟩
    rw [heq]
    simp
    omega
  | case5 done width d ds hclose hd =>
    exact absurd rfl (h (some d))
  | case6 done width c cs hclose hc ih =>
    obtain ⟨content, written, rest, rfl, hwritten, hopen, hrest, heq⟩ := ih h
    refine ⟨c :: content, c :: written, rest, rfl, .plain hc hwritten,
      (unclosed_plain_iff hc).mpr ⟨Bool.eq_false_iff.mpr hclose, hopen⟩, hrest, ?_⟩
    rw [heq]
    simp
    omega

/-- What is read was written so, and was not closed before its end. -/
theorem exists_written_of_read {cs : List Char}
    (h : ∀ next, (e.read cs).ending ≠ .badEscape next) :
    ∃ content written rest, cs = written ++ rest ∧ e.Written content written ∧
      e.Unclosed written rest ∧ (rest = [] ∨ e.closes rest = true) ∧
      e.read cs = ⟨content, written.length, endingBefore rest⟩ := by
  obtain ⟨content, written, rest, heq, hwritten, hopen, hrest, hread⟩ :=
    exists_written_of_readFrom [] 0 cs h
  rw [List.reverse_nil, List.nil_append, Nat.zero_add] at hread
  exact ⟨content, written, rest, heq, hwritten, hopen, hrest, hread⟩

private theorem exists_written_of_readFrom_badEscape {done : List Char} {width : ℕ}
    {cs : List Char} {next : Option Char}
    (h : (e.readFrom done width cs).ending = .badEscape next) :
    ∃ content written rest, cs = written ++ '\\' :: rest ∧ e.Written content written ∧
      e.Unclosed written ('\\' :: rest) ∧ next = rest.head? ∧
      (∀ c ∈ rest.head?, e.escapable c = false) ∧
      (e.readFrom done width cs).width = width + written.length := by
  fun_induction readFrom e done width cs with
  | case1 => contradiction
  | case2 => contradiction
  | case3 done width hclose =>
    obtain rfl := Ending.badEscape.inj h
    exact ⟨[], [], [], rfl, .nil, unclosed_nil _, rfl, by simp, rfl⟩
  | case4 done width d ds hd hclose ih =>
    obtain ⟨content, written, rest, rfl, hwritten, hopen, hnext, hrest, hwidth⟩ := ih h
    refine ⟨d :: content, '\\' :: d :: written, rest, rfl, .escaped hd hwritten,
      (unclosed_escaped_iff hd).mpr hopen, hnext, hrest, ?_⟩
    rw [hwidth, List.length_cons, List.length_cons]
    omega
  | case5 done width d ds hd hclose =>
    obtain rfl := Ending.badEscape.inj h
    exact ⟨[], [], d :: ds, rfl, .nil, unclosed_nil _, rfl, by simpa using hd, rfl⟩
  | case6 done width c cs hclose hc ih =>
    obtain ⟨content, written, rest, rfl, hwritten, hopen, hnext, hrest, hwidth⟩ := ih h
    refine ⟨c :: content, c :: written, rest, rfl, .plain hc hwritten,
      (unclosed_plain_iff hc).mpr ⟨Bool.eq_false_iff.mpr hclose, hopen⟩, hnext, hrest, ?_⟩
    rw [hwidth, List.length_cons]
    omega

/-- Where reading stops before a bad escape, it has read up to the backslash, and what comes next is
no character that the backslash may protect. -/
theorem exists_written_of_badEscape {cs : List Char} {next : Option Char}
    (h : (e.read cs).ending = .badEscape next) :
    ∃ content written rest, cs = written ++ '\\' :: rest ∧ e.Written content written ∧
      e.Unclosed written ('\\' :: rest) ∧ next = rest.head? ∧
      (∀ c ∈ rest.head?, e.escapable c = false) ∧ (e.read cs).width = written.length := by
  rw [read] at h ⊢
  simpa only [Nat.zero_add] using exists_written_of_readFrom_badEscape h

/-! ## The writer's choice -/

theorem written_escape (cs : List Char) : e.Written cs (e.escape cs) := by
  induction cs with
  | nil => exact .nil
  | cons c cs ih =>
    rw [escape_cons]
    by_cases hc : e.escapable c = true
    · rw [if_pos hc]
      exact .escaped hc ih
    · rw [if_neg hc]
      exact .plain (fun heq ↦ hc (heq ▸ e.escapable_backslash)) ih

theorem unclosed_escape (cs rest : List Char) : e.Unclosed (e.escape cs) rest := by
  induction cs with
  | nil => exact unclosed_nil rest
  | cons c cs ih =>
    rw [escape_cons]
    by_cases hc : e.escapable c = true
    · rw [if_pos hc]
      exact (unclosed_escaped_iff hc).mpr ih
    · have hne : c ≠ '\\' := fun heq ↦ hc (heq ▸ e.escapable_backslash)
      have hclose : e.closes (c :: (e.escape cs ++ rest)) = false :=
        Bool.eq_false_iff.mpr fun h ↦ hc (e.escapable_of_closes c _ h)
      rw [if_neg hc]
      exact (unclosed_plain_iff hne).mpr ⟨hclose, ih⟩

end TagTemplate.Escaping
