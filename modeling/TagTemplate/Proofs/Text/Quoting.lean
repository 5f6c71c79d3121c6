import TagTemplate.Proofs.Text.Delimiting
import TagTemplate.Text.Quoted

/-!
# Quoted text stays on its line and is known by what is shown

What text is quoted for is to stay on its line. A line feed has a short form, so it is not shown as
it is, and none of the other characters is shown with a line feed in it: short forms are a backslash
and a letter, and code points are written in digits.

Nothing is lost by that. Short forms can be told from each other by their letters (`meant?`), from
code points since none of the letters begins one, and both from characters that are shown as they
are, since a backslash never is. Nor is a quote, so it is seen where a quoted text ends
(`Quoted.selfDelimiting_quote`).
-/

namespace TagTemplate

theorem isAlphanum_of_mem_toDigits {n : ℕ} {c : Char} (h : c ∈ Nat.toDigits 16 n) :
    c.isAlphanum = true := by
  have hdigit : ∀ d < 16, d.digitChar.isAlphanum = true := by decide
  induction n using Nat.strongRecOn with
  | ind n ih =>
    rcases Nat.lt_or_ge n 16 with hn | hn
    · rw [Nat.toDigits_of_lt_base hn, List.mem_singleton] at h
      exact h ▸ hdigit n hn
    · rw [Nat.toDigits_of_base_le (by decide) hn, List.mem_append, List.mem_singleton] at h
      rcases h with h | rfl
      · exact ih (n / 16) (Nat.div_lt_self (Nat.zero_lt_of_lt hn) (by decide)) h
      · exact hdigit _ (Nat.mod_lt n (by decide))

theorem toDigits_sixteen_injective : Function.Injective (Nat.toDigits 16) := by
  have hdigit : ∀ a < 16, ∀ b < 16, a.digitChar = b.digitChar → a = b := by decide
  have hshort : ∀ n, (Nat.toDigits 16 n).length ≤ 1 ↔ n < 16 := fun n ↦
    Nat.length_toDigits_le_iff (by decide) Nat.one_pos
  intro m
  induction m using Nat.strongRecOn with
  | ind m ih =>
    intro n h
    have hiff : m < 16 ↔ n < 16 := by rw [← hshort, ← hshort, h]
    by_cases hm : m < 16
    · have hn := hiff.mp hm
      rw [Nat.toDigits_of_lt_base hm, Nat.toDigits_of_lt_base hn] at h
      exact hdigit m hm n hn (List.singleton_inj.mp h)
    · have hn := hiff.not.mp hm
      rw [Nat.toDigits_of_base_le (by decide) (not_lt.mp hm),
        Nat.toDigits_of_base_le (by decide) (not_lt.mp hn)] at h
      obtain ⟨hfront, hlast⟩ := List.append_inj' h rfl
      have hquotient : m / 16 = n / 16 := ih (m / 16) (by omega) hfront
      have hrest : m % 16 = n % 16 := hdigit _ (Nat.mod_lt _ (by decide)) _
        (Nat.mod_lt _ (by decide)) (List.singleton_inj.mp hlast)
      omega

namespace Quoted

/-! ## Short forms -/

/-- The character that a letter behind a backslash stands for. -/
def meant? : Char → Option Char
  | '0' => some '\x00'
  | 't' => some '\t'
  | 'r' => some '\r'
  | 'n' => some '\n'
  | '"' => some '"'
  | '\\' => some '\\'
  | _ => none

theorem meant?_of_shortForm? {c letter : Char} (h : shortForm? c = some letter) :
    meant? letter = some c := by
  unfold shortForm? at h
  split at h
  case h_7 => contradiction
  all_goals
    obtain rfl := Option.some.inj h
    rfl

theorem ne_lineFeed_of_shortForm? {c letter : Char} (h : shortForm? c = some letter) :
    letter ≠ '\n' := by
  rintro rfl
  exact nomatch meant?_of_shortForm? h

theorem ne_of_shortForm?_eq_none {c d : Char} (hc : shortForm? c = none)
    (hd : (shortForm? d).isSome = true) : c ≠ d := by
  rintro rfl
  rw [hc] at hd
  contradiction

theorem showChar_cases (c : Char) :
    (∃ letter, shortForm? c = some letter ∧ showChar c = ['\\', letter]) ∨
    (shortForm? c = none ∧ showChar c = [c]) ∨ showChar c = codePointForm c := by
  unfold showChar
  split
  · next letter hletter => exact Or.inl ⟨letter, hletter, rfl⟩
  · next hshort =>
    by_cases hc : isShown c = true
    · rw [if_pos hc]
      exact Or.inr (Or.inl ⟨hshort, rfl⟩)
    · rw [if_neg hc]
      exact Or.inr (Or.inr rfl)

/-! ## One line -/

theorem lineFeed_notMem_codePointForm (c : Char) : '\n' ∉ codePointForm c := by
  intro h
  rw [codePointForm, List.mem_append, List.mem_append] at h
  rcases h with (h | h) | h
  · simp at h
  · exact absurd (isAlphanum_of_mem_toDigits h) (by decide)
  · simp at h

theorem lineFeed_notMem_showChar (c : Char) : '\n' ∉ showChar c := by
  rcases showChar_cases c with ⟨letter, hletter, hc⟩ | ⟨hnone, hc⟩ | hc <;> rw [hc]
  · have hne := ne_lineFeed_of_shortForm? hletter
    simp [hne.symm]
  · rw [List.mem_singleton]
    exact (ne_of_shortForm?_eq_none hnone rfl).symm
  · exact lineFeed_notMem_codePointForm c

theorem lineFeed_notMem_quote (s : String) : '\n' ∉ (quote s).toList := by
  rw [quote, String.toList_ofList, List.mem_append, List.mem_append, List.mem_flatMap]
  rintro ((h | ⟨c, -, h⟩) | h)
  · simp at h
  · exact lineFeed_notMem_showChar c h
  · simp at h

/-! ## What is shown -/

theorem codePointForm_append_inj {c d : Char} {r s : List Char}
    (h : codePointForm c ++ r = codePointForm d ++ s) : c = d ∧ r = s := by
  simp only [codePointForm, List.append_assoc, List.append_cancel_left_eq] at h
  obtain ⟨hdigits, rfl⟩ := eq_and_eq_of_append_cons_eq (fun x ↦ isAlphanum_of_mem_toDigits)
    (fun x ↦ isAlphanum_of_mem_toDigits) (by decide) h
  exact ⟨Char.toNat_inj.mp (toDigits_sixteen_injective hdigits), rfl⟩

/-- A letter behind a backslash does not begin a code point. -/
theorem short_ne_codePointForm {c d letter : Char} (h : shortForm? c = some letter)
    (r s : List Char) : ['\\', letter] ++ r ≠ codePointForm d ++ s := by
  intro heq
  obtain rfl : letter = 'u' := (List.cons.inj (List.cons.inj heq).2).1
  exact nomatch meant?_of_shortForm? h

/-- A character is known by how it is shown, whatever is shown behind it. -/
theorem selfDelimiting_showChar : SelfDelimiting (fun _ ↦ True) showChar := by
  intro c d r s _ _ h
  have hplain : ∀ {x : Char}, shortForm? x = none → x ≠ '\\' := fun hx ↦
    ne_of_shortForm?_eq_none hx rfl
  rcases showChar_cases c with ⟨letter, hletter, hc⟩ | ⟨hnone, hc⟩ | hc <;>
    rcases showChar_cases d with ⟨letter', hletter', hd⟩ | ⟨hnone', hd⟩ | hd <;>
    rw [hc, hd] at h
  · obtain ⟨rfl, rfl⟩ := List.cons.inj (List.cons.inj h).2
    have hmeant := (meant?_of_shortForm? hletter).symm.trans (meant?_of_shortForm? hletter')
    exact ⟨Option.some.inj hmeant, rfl⟩
  · exact absurd (List.cons.inj h).1.symm (hplain hnone')
  · exact absurd h (short_ne_codePointForm hletter r s)
  · exact absurd (List.cons.inj h).1 (hplain hnone)
  · exact List.cons.inj h
  · exact absurd (List.cons.inj h).1 (hplain hnone)
  · exact absurd h.symm (short_ne_codePointForm hletter' s r)
  · exact absurd (List.cons.inj h).1.symm (hplain hnone')
  · exact codePointForm_append_inj h

theorem showChar_append_ne_quote (c : Char) (cs rest : List Char) :
    showChar c ++ cs ≠ '"' :: rest := by
  intro h
  rcases showChar_cases c with ⟨letter, -, hc⟩ | ⟨hnone, hc⟩ | hc <;> rw [hc] at h
  · exact absurd (List.cons.inj h).1 (by decide)
  · exact ne_of_shortForm?_eq_none hnone rfl (List.cons.inj h).1
  · exact absurd (List.cons.inj h).1 (by decide)

/-- A text is known by how it is quoted, and the closing quote shows where it ends. -/
theorem selfDelimiting_quote : SelfDelimiting (fun _ ↦ True) fun s : String ↦ (quote s).toList := by
  intro s t r u _ _ h
  simp only [quote, String.toList_ofList, List.append_assoc, List.append_cancel_left_eq] at h
  obtain ⟨hchars, hrest⟩ := selfDelimiting_showChar.flatMap_append_inj
    (fun c cs _ ↦ showChar_append_ne_quote c cs r) (fun c cs _ ↦ showChar_append_ne_quote c cs u)
    (fun _ _ ↦ trivial) (fun _ _ ↦ trivial) h
  exact ⟨String.toList_inj.mp hchars, (List.cons.inj hrest).2⟩

theorem quote_inj {s t : String} : quote s = quote t ↔ s = t :=
  ⟨fun h ↦ selfDelimiting_quote.inj trivial trivial (congrArg String.toList h), congrArg quote⟩

end Quoted

end TagTemplate
