/-!
# Text behind backslashes

Document text and quoted strings follow one rule with two settings. A backslash protects the next
character, which must be one of a few; any other character stands for itself; and the run goes on
until something ends it, an opening brace with a dollar sign for document text and a quote for a
string. `Escaping` holds the setting, and the two settings are `Escaping.documentText` and
`Escaping.quotedText`.

`Escaping.escape` writes a run and `Escaping.read` reads one. The reader never gives up: it
answers what it understood, how many characters that took, and why it stopped, and leaves it to
its caller whether the end of the input is an error. The two fit together: what was written is read
back whole, whatever follows, as long as what follows ends the run.
-/

namespace TagTemplate

/-- A rule for text in which a backslash protects some characters. -/
structure Escaping where
  /-- The characters that may follow a backslash, and that a writer puts one before. -/
  escapable : Char → Bool
  /-- Whether the run is over when these characters come next. -/
  closes : List Char → Bool
  /-- A backslash can be written. -/
  escapable_backslash : escapable '\\' = true
  /-- What ends a run begins with a character that can be protected, so it can be written too. -/
  escapable_of_closes : ∀ c cs, closes (c :: cs) = true → escapable c = true
  /-- A backslash never ends a run. -/
  closes_backslash : ∀ cs, closes ('\\' :: cs) = false

namespace Escaping

/-! ## The two settings -/

/-- The characters that open a tag. -/
def opensTag : List Char → Bool
  | '{' :: '$' :: _ => true
  | _ => false

/-- Text between tags: it ends where a tag opens. -/
def documentText : Escaping where
  escapable c := c == '{' || c == '\\'
  closes := opensTag
  escapable_backslash := by decide
  escapable_of_closes c cs h := by
    unfold opensTag at h
    split at h <;> simp_all
  closes_backslash cs := rfl

/-- Text between quotes: it ends at a quote. -/
def quotedText : Escaping where
  escapable c := c == '"' || c == '\\'
  closes cs := cs.head? == some '"'
  escapable_backslash := by decide
  escapable_of_closes c cs h := by simp_all
  closes_backslash cs := by simp

/-! ## Writing and reading -/

/-- Writes text with a backslash before every character that needs one. -/
def escape (e : Escaping) (cs : List Char) : List Char :=
  cs.flatMap fun c ↦ if e.escapable c then ['\\', c] else [c]

/-- Why a run stopped. -/
inductive Ending where
  /-- What ends a run comes next. -/
  | closed
  /-- The input is over. -/
  | endOfInput
  /-- A backslash comes next, and then a character that it may not protect, or nothing. -/
  | badEscape (next : Option Char)
deriving DecidableEq, Repr

/-- What reading a run came to. -/
structure Run where
  /-- The text that was read, without its backslashes. -/
  content : List Char
  /-- How many characters of the source that took. -/
  width : Nat
  /-- Why it stopped there. -/
  ending : Ending
deriving DecidableEq, Repr

/-- Reads on from a run of which `width` characters have been read; `done` is the text so far,
latest character first. -/
def readFrom (e : Escaping) (done : List Char) (width : Nat) : List Char → Run
  | [] => ⟨done.reverse, width, .endOfInput⟩
  | c :: cs =>
    if e.closes (c :: cs) then ⟨done.reverse, width, .closed⟩
    else if c = '\\' then
      match cs with
      | [] => ⟨done.reverse, width, .badEscape none⟩
      | d :: ds =>
        if e.escapable d then e.readFrom (d :: done) (width + 2) ds
        else ⟨done.reverse, width, .badEscape (some d)⟩
    else e.readFrom (c :: done) (width + 1) cs

/-- Reads the run at the start of the given characters. -/
def read (e : Escaping) (cs : List Char) : Run := e.readFrom [] 0 cs

/-! ## What is written -/

theorem escape_cons (e : Escaping) (c : Char) (cs : List Char) :
    e.escape (c :: cs) = (if e.escapable c then ['\\', c] else [c]) ++ e.escape cs :=
  List.flatMap_cons

theorem escape_append (e : Escaping) (cs ds : List Char) :
    e.escape (cs ++ ds) = e.escape cs ++ e.escape ds := List.flatMap_append

/-! ## How far a run goes -/

theorem le_width_readFrom (e : Escaping) (done : List Char) (width : Nat) (cs : List Char) :
    width ≤ (e.readFrom done width cs).width := by
  fun_induction readFrom e done width cs <;> simp_all <;> omega

/-- Where nothing ends a run, it takes a character or stops before a bad escape. -/
theorem width_read_pos (e : Escaping) {c : Char} {cs : List Char} (h : e.closes (c :: cs) = false)
    (hbad : ∀ next, (e.read (c :: cs)).ending ≠ .badEscape next) :
    0 < (e.read (c :: cs)).width := by
  rw [read, readFrom.eq_def] at hbad ⊢
  by_cases hc : c = '\\'
  · cases cs with
    | nil => simp_all
    | cons d ds =>
      by_cases hd : e.escapable d = true
      · have := e.le_width_readFrom [d] 2 ds
        simp_all
        omega
      · simp_all
  · have := e.le_width_readFrom [c] 1 cs
    simp_all
    omega

end Escaping

end TagTemplate
