import TagTemplate.Document.Render
import TagTemplate.Proofs.Token.Seam

/-!
# Text with all braces protected

Text is written with a backslash before every brace and every backslash, and it is read with any
brace left as it is that does not open a tag. So writing is undone by reading, but reading is undone
by writing only where the source had all its braces protected. How far the two are apart in general
can be read off the source: a brace is protected if the backslashes right before it are odd in
number, and writing anew puts one backslash before each brace that is not (`protectBraces`).

The number of backslashes tells what the reader knows only from reading on from the beginning, since
every escape that has been read is complete (`Escaping.Written.protectBracesFrom_eq`).
-/

namespace TagTemplate

/-! ## Protecting braces -/

instance : DecidablePred EvenBackslashes := fun cs ↦
  inferInstanceAs (Decidable (Even (cs.rtakeWhile (· == '\\')).length))

/-- Whether the backslashes before each brace protect it. -/
def BracesProtected (cs : List Char) : Prop :=
  ∀ before behind, cs = before ++ '{' :: behind → ¬EvenBackslashes before

/-- Characters that come behind others, with a backslash before each brace that is not protected,
and with nothing else changed. -/
def protectBracesFrom (before : List Char) : List Char → List Char
  | [] => []
  | c :: cs =>
    if c = '{' ∧ EvenBackslashes before then '\\' :: c :: protectBracesFrom (before ++ [c]) cs
    else c :: protectBracesFrom (before ++ [c]) cs

/-- Characters with a backslash before each brace that is not protected. -/
def protectBraces (cs : List Char) : List Char := protectBracesFrom [] cs

example : protectBraces ['\\', '{', '{', '\\', '\\', '{'] =
    ['\\', '{', '\\', '{', '\\', '\\', '\\', '{'] := by
  decide

theorem protectBracesFrom_eq_self_iff {before cs : List Char} :
    protectBracesFrom before cs = cs ↔
      ∀ passed behind, cs = passed ++ '{' :: behind → ¬EvenBackslashes (before ++ passed) := by
  induction cs generalizing before with
  | nil => exact iff_of_true rfl fun passed behind h ↦ by simp at h
  | cons c cs ih =>
    rw [protectBracesFrom]
    by_cases hopen : c = '{' ∧ EvenBackslashes before
    · obtain ⟨rfl, heven⟩ := hopen
      rw [if_pos ⟨rfl, heven⟩]
      refine iff_of_false (fun h ↦ absurd (List.cons.inj h).1 (by decide)) fun h ↦ ?_
      exact h [] cs rfl (by rwa [List.append_nil])
    · rw [if_neg hopen, List.cons.injEq, eq_self, true_and, ih]
      constructor
      · intro h passed behind heq heven
        cases passed with
        | nil => exact hopen ⟨(List.cons.inj heq).1, by rwa [List.append_nil] at heven⟩
        | cons d passed =>
          obtain ⟨rfl, hcs⟩ := List.cons.inj heq
          exact h passed behind hcs (by rwa [List.append_assoc, List.singleton_append])
      · intro h passed behind heq
        rw [List.append_assoc, List.singleton_append]
        exact h (c :: passed) behind (congrArg (c :: ·) heq)

theorem protectBraces_eq_self_iff {cs : List Char} : protectBraces cs = cs ↔ BracesProtected cs :=
  protectBracesFrom_eq_self_iff

namespace Escaping

/-- What text may be written as becomes what the writer makes of the text, behind anything that does
not protect its first character. -/
theorem Written.protectBracesFrom_eq {content written : List Char}
    (h : documentText.Written content written) {before : List Char}
    (hbefore : EvenBackslashes before) :
    protectBracesFrom before written = documentText.escape content := by
  induction h generalizing before with
  | nil => rfl
  | @plain c content written hc _ ih =>
    rw [protectBracesFrom, escape_cons, ih (evenBackslashes_concat hc before)]
    by_cases hbrace : c = '{'
    · rw [if_pos ⟨hbrace, hbefore⟩, if_pos (escapable_documentText_iff.mpr (Or.inl hbrace))]
      rfl
    · have hplain : ¬documentText.escapable c = true := fun hescapable ↦
        (escapable_documentText_iff.mp hescapable).elim hbrace hc
      rw [if_neg fun hopen ↦ hbrace hopen.1, if_neg hplain]
      rfl
  | @escaped c content written hc _ ih =>
    -- Behind its backslash the character is protected, and behind the two nothing is.
    have hodd : ¬EvenBackslashes (before ++ ['\\']) := fun heven ↦
      evenBackslashes_backslash_iff.mp heven hbefore
    have hboth : EvenBackslashes (before ++ ['\\'] ++ [c]) := by
      rw [List.append_assoc]
      exact (evenBackslashes_append_iff hbefore _).mpr (Written.nil.escaped hc).evenBackslashes
    rw [protectBracesFrom, if_neg (by simp), protectBracesFrom, if_neg fun hopen ↦ hodd hopen.2,
      ih hboth, escape_cons, if_pos hc]
    rfl

theorem Written.protectBraces_eq {content written : List Char}
    (h : documentText.Written content written) :
    protectBraces written = documentText.escape content :=
  h.protectBracesFrom_eq evenBackslashes_nil

theorem bracesProtected_escape (cs : List Char) : BracesProtected (documentText.escape cs) :=
  protectBraces_eq_self_iff.mp (written_escape cs).protectBraces_eq

end Escaping

/-! ## One text -/

theorem isPiece_escape {content : List Char} (hne : content ≠ []) {rest : List Char}
    (hrest : rest = [] ∨ Escaping.opensTag rest = true) :
    IsPiece Exponent.size .text (.text (String.ofList content))
      (Escaping.documentText.escape content) rest := by
  have hwritten := Escaping.written_escape (e := Escaping.documentText) content
  refine ⟨.text _, .text ?_ hwritten, hrest, Escaping.unclosed_escape content rest⟩
  intro hnil
  rw [hnil] at hwritten
  cases hwritten
  exact hne rfl

theorem Scans.written_of_text {p : Position} {cs : List Char} {content : String}
    {tokens : List Token} (h : Scans Exponent.size p .text cs tokens)
    (hkinds : tokens.map Token.kind = [.text content, .endOfInput]) :
    Escaping.documentText.Written content.toList cs := by
  cases h with
  | endOfInput p => cases hkinds
  | @token _ _ gap written rest kind tokens hgap hkind hpiece hscans =>
    obtain ⟨rfl, hrest⟩ := List.cons.inj hkinds
    obtain rfl := hgap.eq_nil rfl
    obtain rfl := hscans.eq_nil hrest
    rw [List.nil_append, List.append_nil]
    cases hpiece.spelled with
    | text _ hwritten => rwa [String.toList_ofList]

/-- **Texts.** A text that is not empty, followed by nothing or by a tag, is read as that text from
what it is written as. The token spans just what is written, and what follows is left to be read.
All braces of what is written are protected. And a source that is one text is written anew as it
was if and only if all its braces are protected, and in any case with a backslash before each one
that is not, and nothing else changed. -/
theorem text_is_written_with_braces_protected :
    (∀ content rest : String, content ≠ "" → (rest = "" ∨ ∃ more, rest = "\x7b$" ++ more) →
      ∃ stop : Position, stop.offset = (escapeText content).length ∧
        (TokenStream.ofSource (escapeText content ++ rest)).next
          = (.ok ⟨.text content, .origin, stop⟩, ⟨⟨rest.toList, stop⟩, .text⟩)) ∧
    (∀ content : String, BracesProtected (escapeText content).toList) ∧
    ∀ (source content : String) (tokens : List Token), tokenize source = .ok tokens →
      tokens.map Token.kind = [.text content, .endOfInput] →
      (escapeText content = source ↔ BracesProtected source.toList) ∧
      escapeText content = String.ofList (protectBraces source.toList) := by
  refine ⟨?_, ?_, ?_⟩
  · intro content rest hne hrest
    have hopens : rest.toList = [] ∨ Escaping.opensTag rest.toList = true := by
      rcases hrest with rfl | ⟨more, rfl⟩
      · exact Or.inl rfl
      · refine Or.inr ?_
        rw [String.toList_append]
        rfl
    have hpiece := isPiece_escape (String.toList_eq_nil_iff.not.mpr hne) hopens
    rw [String.ofList_toList] at hpiece
    refine ⟨Position.origin.after (Escaping.documentText.escape content.toList), ?_, ?_⟩
    · rw [Position.offset_after, escapeText, String.length_ofList]
      exact Nat.zero_add _
    · have hsource : (escapeText content ++ rest).toList
          = [] ++ (Escaping.documentText.escape content.toList ++ rest.toList) := by
        rw [String.toList_append, escapeText, String.toList_ofList, List.nil_append]
      have hgap : Mode.text.Gap [] := ⟨by simp, fun _ ↦ rfl⟩
      exact (@TokenStream.next_eq_ok_iff .origin .text _ _ _ _).mpr
        ⟨[], _, _, hsource, hgap, hpiece, rfl, rfl⟩
  · intro content
    rw [escapeText, String.toList_ofList]
    exact Escaping.bracesProtected_escape content.toList
  · intro source content tokens htokens hkinds
    have hwritten := (tokenize_eq_ok_iff_scans.mp htokens).written_of_text hkinds
    rw [← protectBraces_eq_self_iff, hwritten.protectBraces_eq, ← String.toList_inj, escapeText,
      String.toList_ofList]
    exact ⟨Iff.rfl, rfl⟩

/-- A source of two braces, only the second protected, is written anew with both protected. -/
theorem text_of_two_braces :
    tokenize "\x7b\\\x7b" = .ok [⟨.text "\x7b\x7b", ⟨0, 1, 1⟩, ⟨3, 1, 4⟩⟩,
      ⟨.endOfInput, ⟨3, 1, 4⟩, ⟨3, 1, 4⟩⟩] ∧
    ¬BracesProtected ['{', '\\', '{'] ∧ escapeText "\x7b\x7b" = "\\\x7b\\\x7b" := by
  have htokens : tokenize "\x7b\\\x7b" = .ok [⟨.text "\x7b\x7b", ⟨0, 1, 1⟩, ⟨3, 1, 4⟩⟩,
      ⟨.endOfInput, ⟨3, 1, 4⟩, ⟨3, 1, 4⟩⟩] := by
    decide +kernel
  obtain ⟨-, -, hsource⟩ := text_is_written_with_braces_protected
  obtain ⟨hsame, hwritten⟩ := hsource _ "\x7b\x7b" _ htokens rfl
  refine ⟨htokens, fun hprotected ↦ absurd (hsame.mpr hprotected) (by decide), ?_⟩
  rw [hwritten]
  decide

end TagTemplate
