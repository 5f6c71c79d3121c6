import Mathlib.Algebra.Order.BigOperators.Group.List
import TagTemplate.Proofs.Text.Delimiting

/-!
# Lines

A listing is a text that consists of lines, each of which has a line feed at its end. That says
where one line ends and the next begins only if no line has a line feed in it as well
(`ConsistsOfLines`). Then there are as many line feeds as lines, and the text has no other lines
(`ConsistsOfLines.unique`).
-/

namespace TagTemplate

/-! ## Counting line feeds -/

/-- How many line feeds there are in a text. -/
def lineFeeds (text : String) : ℕ := text.toList.count '\n'

theorem lineFeeds_eq_zero_iff {text : String} : lineFeeds text = 0 ↔ '\n' ∉ text.toList :=
  List.count_eq_zero

theorem lineFeeds_append (text more : String) :
    lineFeeds (text ++ more) = lineFeeds text + lineFeeds more := by
  rw [lineFeeds, String.toList_append, List.count_append, lineFeeds, lineFeeds]

theorem lineFeeds_intercalate_space (texts : List String) :
    lineFeeds (" ".intercalate texts) = (texts.map lineFeeds).sum := by
  induction texts with
  | nil => rfl
  | cons text texts ih =>
    cases texts with
    | nil => simp
    | cons next texts =>
      have hspace : lineFeeds " " = 0 := by decide
      rw [String.intercalate_cons_cons, lineFeeds_append, lineFeeds_append, hspace, ih,
        Nat.add_zero, List.map_cons (l := next :: texts), List.sum_cons]

theorem lineFeeds_join_lines (lines : List String) :
    lineFeeds (String.join (lines.map (· ++ "\n"))) = lines.length + (lines.map lineFeeds).sum := by
  have hfeed : lineFeeds "\n" = 1 := by decide
  induction lines with
  | nil => rfl
  | cons line lines ih =>
    rw [List.map_cons, String.join_cons, lineFeeds_append, lineFeeds_append, hfeed, ih,
      List.map_cons, List.sum_cons, List.length_cons]
    omega

/-! ## Texts that consist of lines -/

/-- Whether a text consists of lines, each of which has a line feed at its end and none before. -/
structure ConsistsOfLines (text : String) (lines : List String) : Prop where
  /-- The lines, one behind the other. -/
  text_eq : text = String.join (lines.map (· ++ "\n"))
  /-- None of them is more than one line. -/
  single : ∀ line ∈ lines, '\n' ∉ line.toList

theorem consistsOfLines_join_iff {lines : List String} :
    ConsistsOfLines (String.join (lines.map (· ++ "\n"))) lines ↔
      (lines.map lineFeeds).sum = 0 := by
  have hsum : (lines.map lineFeeds).sum = 0 ↔ ∀ line ∈ lines, '\n' ∉ line.toList := by
    rw [List.sum_eq_zero_iff, List.forall_mem_map]
    exact forall₂_congr fun _ _ ↦ lineFeeds_eq_zero_iff
  rw [hsum]
  exact ⟨ConsistsOfLines.single, fun h ↦ ⟨rfl, h⟩⟩

theorem toList_join_lines (lines : List String) :
    (String.join (lines.map (· ++ "\n"))).toList
      = lines.flatMap fun line ↦ line.toList ++ ['\n'] := by
  rw [String.toList_join, List.flatMap_map]
  exact List.flatMap_congr fun line _ ↦ String.toList_append

theorem selfDelimiting_line :
    SelfDelimiting (fun line : String ↦ '\n' ∉ line.toList) fun line ↦ line.toList ++ ['\n'] := by
  intro line line' r s hline hline' h
  rw [List.append_assoc, List.append_assoc] at h
  obtain ⟨hchars, rfl⟩ := eq_and_eq_of_append_cons_eq (p := (· != '\n'))
    (fun c hc ↦ bne_iff_ne.mpr fun heq ↦ hline (heq ▸ hc))
    (fun c hc ↦ bne_iff_ne.mpr fun heq ↦ hline' (heq ▸ hc)) rfl h
  exact ⟨String.toList_inj.mp hchars, rfl⟩

namespace ConsistsOfLines

variable {text : String} {lines lines' : List String}

theorem lineFeeds_eq (h : ConsistsOfLines text lines) : lineFeeds text = lines.length := by
  have hzero : (lines.map lineFeeds).sum = 0 := by
    rw [← consistsOfLines_join_iff, ← h.text_eq]
    exact h
  rw [h.text_eq, lineFeeds_join_lines, hzero, Nat.add_zero]

/-- A text that consists of lines does so in one way only. -/
theorem unique (h : ConsistsOfLines text lines) (h' : ConsistsOfLines text lines') :
    lines = lines' := by
  have heq := congrArg String.toList (h.text_eq.symm.trans h'.text_eq)
  rw [toList_join_lines, toList_join_lines] at heq
  exact selfDelimiting_line.flatMap_inj (fun _ _ ↦ List.concat_ne_nil _ _) h.single h'.single heq

end ConsistsOfLines

end TagTemplate
