import TagTemplate.Proofs.Document.Grammar

/-!
# Tags and how deep they are nested

The tags of a template can be listed without reading it as a document: each begins at its opening
and has in it what comes up to the next closing (`Tag.ofTokens`). Some tags open a loop and some
close one, and `Tag.depth` counts by how much the first are ahead of the second.

Counting knows of no matching, and what it says about matching is the content of this module. Where
the depth becomes negative for the first time stands a tag that closes a loop, and before it the
depth was 0 (`Tag.closesLoop_of_first_negative`). Where it never does, every loop that has been
opened is either closed again or still open, and the tags that opened those that are still open can
be listed with balanced tags between them (`Tag.Pending`). How many they are is the depth, and the
first in this list is the innermost (`Tag.Pending.isInnermostOpen`).
-/

namespace TagTemplate

/-- A tag as it stands among tokens. -/
structure Tag where
  /-- The place where it was opened. -/
  opening : Position
  /-- The kinds of the tokens in it. -/
  kinds : List TokenKind

namespace Tag

/-! ## The tags among tokens -/

/-- The tags among tokens. -/
def ofTokens : List Token → List Tag
  | [] => []
  | token :: tokens =>
    if token.kind = .tagStart then
      ⟨token.start, (tokens.map Token.kind).takeWhile (· ≠ .tagEnd)⟩ :: ofTokens tokens
    else ofTokens tokens

/-- What is in the tag at the top of a loop. -/
def loopKinds (name : String) (header : LoopHeader) : List TokenKind :=
  .tagHead name :: header.elements.map .element

/-- Whether a tag is valid when it is taken alone: it echoes elements, opens a loop with a header,
or closes a loop and has no elements. -/
inductive IsValid : Tag → Prop
  | echo (opening : Position) {elements : List Element} : elements ≠ [] →
    IsValid ⟨opening, .tagHead "=" :: elements.map .element⟩
  | loop (opening : Position) {name : String} {header : LoopHeader} : SpellsFor name →
    (∀ e ∈ header.bounds, IsBound e) → IsValid ⟨opening, loopKinds name header⟩
  | close (opening : Position) {name : String} : SpellsEnd name →
    IsValid ⟨opening, [.tagHead name]⟩

/-- Whether tokens are texts and whole tags, and which tags these are. -/
inductive Among : List Token → List Tag → Prop
  | nil : Among [] []
  | text {token : Token} {content : String} {tokens : List Token} {tags : List Tag} :
    token.kind = .text content → Among tokens tags → Among (token :: tokens) tags
  | tag {start last : Token} {inner tokens : List Token} {tags : List Tag} :
    start.kind = .tagStart → (∀ t ∈ inner, t.kind ≠ .tagStart ∧ t.kind ≠ .tagEnd) →
    last.kind = .tagEnd → Among tokens tags →
    Among (start :: (inner ++ last :: tokens)) (⟨start.start, inner.map Token.kind⟩ :: tags)

private theorem ofTokens_append_of_forall {inner : List Token}
    (h : ∀ t ∈ inner, t.kind ≠ .tagStart ∧ t.kind ≠ .tagEnd) (more : List Token) :
    ofTokens (inner ++ more) = ofTokens more := by
  induction inner with
  | nil => rfl
  | cons token inner ih =>
    rw [List.forall_mem_cons] at h
    rw [List.cons_append, ofTokens, if_neg h.1.1, ih h.2]

theorem Among.ofTokens_append {tokens : List Token} {tags : List Tag} (h : Among tokens tags)
    (more : List Token) : ofTokens (tokens ++ more) = tags ++ ofTokens more := by
  induction h with
  | nil => rfl
  | text hkind _ ih =>
    rw [List.cons_append, ofTokens, if_neg (by simp [hkind]), ih]
  | @tag start last inner tokens tags hstart hinner hlast _ ih =>
    have hkinds : ((inner ++ last :: (tokens ++ more)).map Token.kind).takeWhile (· ≠ .tagEnd)
        = inner.map Token.kind := by
      rw [List.map_append]
      refine takeWhile_append_of_stops (fun kind hkind ↦ ?_) (fun kind hkind ↦ ?_)
      · obtain ⟨t, ht, rfl⟩ := List.mem_map.mp hkind
        exact decide_eq_true (hinner t ht).2
      · obtain rfl := Option.some_inj.mp hkind
        exact decide_eq_false (not_not_intro hlast)
    have hrest : ofTokens (inner ++ last :: (tokens ++ more)) = tags ++ ofTokens more := by
      rw [ofTokens_append_of_forall hinner, ofTokens, if_neg (by simp [hlast]), ih]
    rw [List.cons_append, List.append_assoc, List.cons_append, ofTokens, if_pos hstart, hkinds,
      hrest, List.cons_append]

theorem Among.ofTokens_eq {tokens : List Token} {tags : List Tag} (h : Among tokens tags) :
    ofTokens tokens = tags := by
  have := h.ofTokens_append []
  rwa [ofTokens, List.append_nil, List.append_nil] at this

theorem Among.append {tokens more : List Token} {tags others : List Tag} (h : Among tokens tags)
    (hmore : Among more others) : Among (tokens ++ more) (tags ++ others) := by
  induction h with
  | nil => exact hmore
  | text hkind _ ih => exact .text hkind ih
  | tag hstart hinner hlast _ ih =>
    rw [List.cons_append, List.append_assoc]
    exact .tag hstart hinner hlast ih

theorem Among.exists_split {tokens : List Token} {before behind : List Tag} {tag : Tag}
    (h : Among tokens (before ++ tag :: behind)) :
    ∃ seen start inner last rest, tokens = seen ++ (start :: (inner ++ last :: rest)) ∧
      Among seen before ∧ start.kind = .tagStart ∧
      (∀ t ∈ inner, t.kind ≠ .tagStart ∧ t.kind ≠ .tagEnd) ∧ last.kind = .tagEnd ∧
      tag = ⟨start.start, inner.map Token.kind⟩ ∧ Among rest behind := by
  generalize hall : before ++ tag :: behind = all at h
  induction h generalizing before with
  | nil => exact absurd hall (by simp)
  | text hkind _ ih =>
    obtain ⟨seen, start, inner, last, rest, rfl, hseen, h⟩ := ih hall
    exact ⟨_ :: seen, start, inner, last, rest, rfl, .text hkind hseen, h⟩
  | @tag start last inner tokens tags hstart hinner hlast hamong ih =>
    cases before with
    | nil =>
      obtain ⟨rfl, rfl⟩ := List.cons.inj hall
      exact ⟨[], start, inner, last, tokens, rfl, .nil, hstart, hinner, hlast, rfl, hamong⟩
    | cons first before =>
      obtain ⟨rfl, hrest⟩ := List.cons.inj hall
      obtain ⟨seen, start', inner', last', rest, rfl, hseen, h⟩ := ih hrest
      refine ⟨start :: (inner ++ last :: seen), start', inner', last', rest, ?_,
        .tag hstart hinner hlast hseen, h⟩
      rw [List.cons_append, List.append_assoc, List.cons_append]

/-- What the tokens of a source are from a place on: texts, whole tags and the end of the input, and
before them the rest of the tag that is open at the place, if one is. -/
private theorem exists_among_of_scans {p : Position} {mode : Mode} {cs : List Char}
    {tokens : List Token} (h : Scans Exponent.size p mode cs tokens) :
    ∃ others last tags, Among others tags ∧ last.kind = .endOfInput ∧
      (mode = .text → tokens = others ++ [last]) ∧
      (mode ≠ .text → ∃ inner closer, tokens = inner ++ closer :: (others ++ [last]) ∧
        (∀ t ∈ inner, t.kind ≠ .tagStart ∧ t.kind ≠ .tagEnd) ∧ closer.kind = .tagEnd) := by
  induction h with
  | endOfInput p => exact ⟨[], _, [], .nil, rfl, fun _ ↦ rfl, fun hne ↦ absurd rfl hne⟩
  | @token p mode gap written rest kind tokens hgap hkind hpiece _ ih =>
    obtain ⟨others, last, tags, hamong, hlast, htext, htag⟩ := ih
    obtain ⟨token, htoken⟩ : ∃ token : Token,
        token = ⟨kind, p.after gap, (p.after gap).after written⟩ := ⟨_, rfl⟩
    obtain rfl : token.kind = kind := congrArg Token.kind htoken
    rw [← htoken]
    -- A head or an element goes to the tag that is open.
    have hinside (hbody : token.kind.mode = .body) :
        ∃ inner closer, token :: tokens = inner ++ closer :: (others ++ [last]) ∧
          (∀ t ∈ inner, t.kind ≠ .tagStart ∧ t.kind ≠ .tagEnd) ∧ closer.kind = .tagEnd := by
      obtain ⟨inner, closer, rfl, hinner, hcloser⟩ := htag (by simp [hbody])
      refine ⟨token :: inner, closer, rfl, List.forall_mem_cons.mpr ⟨⟨?_, ?_⟩, hinner⟩, hcloser⟩
      all_goals
        intro hkind
        rw [hkind] at hbody
        contradiction
    have hadmits := hpiece.admits
    generalize hkind' : token.kind = kind at *
    cases hadmits with
    | text content =>
      refine ⟨token :: others, last, tags, .text hkind' hamong, hlast, fun _ ↦ ?_,
        fun hne ↦ absurd rfl hne⟩
      rw [htext rfl, List.cons_append]
    | endOfInput => exact absurd rfl hkind
    | tagStart =>
      obtain ⟨inner, closer, rfl, hinner, hcloser⟩ := htag nofun
      refine ⟨token :: (inner ++ closer :: others), last, _, .tag hkind' hinner hcloser hamong,
        hlast, fun _ ↦ ?_, fun hne ↦ absurd rfl hne⟩
      rw [List.cons_append, List.append_assoc, List.cons_append]
    | tagHead _ | headElement _ | bodyElement _ =>
      exact ⟨others, last, tags, hamong, hlast, nofun, fun _ ↦ hinside rfl⟩
    | tagEnd hmode =>
      refine ⟨others, last, tags, hamong, hlast, fun h ↦ absurd h hmode, fun _ ↦ ?_⟩
      refine ⟨[], token, ?_, List.forall_mem_nil _, hkind'⟩
      rw [htext rfl, List.nil_append]

theorem exists_among_of_tokenize {source : String} {tokens : List Token}
    (h : tokenize source = .ok tokens) :
    ∃ others last, tokens = others ++ [last] ∧ last.kind = .endOfInput ∧
      Among others (ofTokens tokens) := by
  obtain ⟨others, last, tags, hamong, hlast, htext, -⟩ :=
    exists_among_of_scans (tokenize_eq_ok_iff_scans.mp h)
  obtain rfl := htext rfl
  refine ⟨others, last, rfl, hlast, ?_⟩
  rwa [hamong.ofTokens_append, ofTokens, if_neg (by simp [hlast]), ofTokens, List.append_nil]

/-! ## Depth -/

/-- Whether a tag opens a loop. -/
def opensLoop (tag : Tag) : Bool :=
  match tag.kinds with
  | .tagHead name :: _ => decide (SpellsFor name)
  | _ => false

/-- Whether a tag closes a loop. -/
def closesLoop (tag : Tag) : Bool :=
  match tag.kinds with
  | .tagHead name :: _ => decide (SpellsEnd name)
  | _ => false

theorem closesLoop_eq_false_of_opensLoop {tag : Tag} (h : tag.opensLoop = true) :
    tag.closesLoop = false := by
  rw [opensLoop] at h
  split at h
  · rename_i name _ hkinds
    have hspells : SpellsFor name := of_decide_eq_true h
    rw [closesLoop, hkinds]
    exact decide_eq_false (not_spellsEnd_of_spellsFor hspells)
  · contradiction

/-- By how much the tags that open a loop are ahead of those that close one. -/
def depth (tags : List Tag) : ℤ := tags.countP opensLoop - tags.countP closesLoop

variable {tags more before behind inner : List Tag} {tag top : Tag} {opened : List Tag}

@[simp] theorem depth_nil : depth [] = 0 := rfl

@[simp] theorem depth_append (tags more : List Tag) :
    depth (tags ++ more) = depth tags + depth more := by
  rw [depth, depth, depth, List.countP_append, List.countP_append]
  push_cast
  ring

theorem depth_cons (tag : Tag) (tags : List Tag) : depth (tag :: tags) = depth [tag] + depth tags :=
  depth_append [tag] tags

theorem depth_singleton_of_opensLoop (h : tag.opensLoop = true) : depth [tag] = 1 := by
  simp [depth, h, closesLoop_eq_false_of_opensLoop h]

theorem depth_singleton_of_closesLoop (h : tag.closesLoop = true) : depth [tag] = -1 := by
  have hopens : tag.opensLoop = false := by
    by_contra hopens
    rw [Bool.not_eq_false] at hopens
    rw [closesLoop_eq_false_of_opensLoop hopens] at h
    contradiction
  simp [depth, h, hopens]

theorem depth_singleton_of_neither (hopens : tag.opensLoop = false)
    (hcloses : tag.closesLoop = false) : depth [tag] = 0 := by
  simp [depth, hopens, hcloses]

theorem closesLoop_of_depth_neg (h : depth [tag] < 0) :
    tag.closesLoop = true ∧ depth [tag] = -1 := by
  by_cases hcloses : tag.closesLoop = true
  · exact ⟨hcloses, depth_singleton_of_closesLoop hcloses⟩
  rw [Bool.not_eq_true] at hcloses
  by_cases hopens : tag.opensLoop = true
  · rw [depth_singleton_of_opensLoop hopens] at h
    contradiction
  · rw [Bool.not_eq_true] at hopens
    rw [depth_singleton_of_neither hopens hcloses] at h
    contradiction

/-- Whether the depth is never negative, after however many of the tags. -/
def NeverNegative (tags : List Tag) : Prop := ∀ k, 0 ≤ depth (tags.take k)

theorem neverNegative_nil : NeverNegative [] := by
  intro k
  rw [List.take_nil, depth_nil]

theorem NeverNegative.depth_nonneg (h : NeverNegative tags) : 0 ≤ depth tags := by
  have := h tags.length
  rwa [List.take_length] at this

theorem neverNegative_append : NeverNegative (tags ++ more) ↔
    NeverNegative tags ∧ ∀ k, 0 ≤ depth tags + depth (more.take k) := by
  constructor
  · intro h
    refine ⟨fun k ↦ ?_, fun k ↦ ?_⟩
    · rcases le_total k tags.length with hk | hk
      · have := h k
        rwa [List.take_append_of_le_length hk] at this
      · have := h tags.length
        rwa [List.take_left, ← List.take_of_length_le hk] at this
    · have := h (tags.length + k)
      rwa [List.take_length_add_append, depth_append] at this
  · rintro ⟨htags, hmore⟩ k
    rw [List.take_append, depth_append]
    rcases le_total k tags.length with hk | hk
    · rw [Nat.sub_eq_zero_of_le hk, List.take_zero, depth_nil, add_zero]
      exact htags k
    · rw [List.take_of_length_le hk]
      exact hmore _

theorem neverNegative_concat :
    NeverNegative (tags ++ [tag]) ↔ NeverNegative tags ∧ 0 ≤ depth (tags ++ [tag]) := by
  rw [neverNegative_append, depth_append]
  refine and_congr_right fun h ↦ ⟨fun hk ↦ hk 1, fun hle k ↦ ?_⟩
  cases k with
  | zero => simpa using h.depth_nonneg
  | succ k => simpa using hle

/-- Where the depth becomes negative at some time, it does so for the first time at a tag. -/
theorem exists_first_negative (h : ¬NeverNegative tags) :
    ∃ before tag behind, tags = before ++ tag :: behind ∧ NeverNegative before ∧
      depth (before ++ [tag]) < 0 := by
  induction tags using List.reverseRecOn with
  | nil => exact absurd neverNegative_nil h
  | append_singleton tags tag ih =>
    by_cases htags : NeverNegative tags
    · refine ⟨tags, tag, [], rfl, htags, ?_⟩
      by_contra hle
      exact h (neverNegative_concat.mpr ⟨htags, not_lt.mp hle⟩)
    · obtain ⟨before, first, behind, rfl, hfirst⟩ := ih htags
      refine ⟨before, first, behind ++ [tag], ?_, hfirst⟩
      rw [List.append_assoc, List.cons_append]

/-- Where the depth becomes negative a loop is closed, and before that the depth was 0. -/
theorem closesLoop_of_first_negative (hbefore : NeverNegative before)
    (htag : depth (before ++ [tag]) < 0) : depth before = 0 ∧ tag.closesLoop = true := by
  rw [depth_append] at htag
  have hle := hbefore.depth_nonneg
  have hneg : depth [tag] < 0 := by omega
  obtain ⟨hcloses, hdepth⟩ := closesLoop_of_depth_neg hneg
  exact ⟨by omega, hcloses⟩

theorem neverNegative_singleton (h : 0 ≤ depth [tag]) : NeverNegative [tag] := by
  have hconcat : NeverNegative ([] ++ [tag]) := neverNegative_concat.mpr ⟨neverNegative_nil, h⟩
  exact hconcat

theorem NeverNegative.append (h : NeverNegative tags) (hmore : NeverNegative more) :
    NeverNegative (tags ++ more) :=
  neverNegative_append.mpr ⟨h, fun k ↦ add_nonneg h.depth_nonneg (hmore k)⟩

theorem neverNegative_cons_of_opensLoop (htop : top.opensLoop = true) (h : NeverNegative inner) :
    NeverNegative (top :: inner) := by
  have hdepth : 0 ≤ depth [top] := by
    rw [depth_singleton_of_opensLoop htop]
    exact one_pos.le
  exact (neverNegative_singleton hdepth).append h

/-! ## Matching -/

/-- Whether tags close exactly the loops that they open. -/
structure Balanced (tags : List Tag) : Prop where
  /-- None is closed that has not been opened. -/
  neverNegative : NeverNegative tags
  /-- None is left open. -/
  depth_eq_zero : depth tags = 0

theorem balanced_nil : Balanced [] := ⟨neverNegative_nil, rfl⟩

theorem Balanced.append (h : Balanced tags) (hmore : Balanced more) : Balanced (tags ++ more) := by
  refine ⟨h.neverNegative.append hmore.neverNegative, ?_⟩
  rw [depth_append, h.depth_eq_zero, hmore.depth_eq_zero, add_zero]

theorem balanced_singleton (h : depth [tag] = 0) : Balanced [tag] :=
  ⟨neverNegative_singleton h.ge, h⟩

theorem Balanced.loop (h : Balanced inner) (htop : top.opensLoop = true)
    (htag : tag.closesLoop = true) : Balanced (top :: (inner ++ [tag])) := by
  have hdepth : depth (top :: (inner ++ [tag])) = 0 := by
    rw [depth_cons, depth_append, depth_singleton_of_opensLoop htop,
      depth_singleton_of_closesLoop htag, h.depth_eq_zero]
    rfl
  have hinner := neverNegative_cons_of_opensLoop htop h.neverNegative
  exact ⟨neverNegative_concat.mpr ⟨hinner, hdepth.ge⟩, hdepth⟩

/-- Whether a loop that was opened right before the given tags is closed by one of them: there are
balanced tags and then one that closes a loop. -/
def ClosedIn (tags : List Tag) : Prop :=
  ∃ inner closer rest, tags = inner ++ closer :: rest ∧ Balanced inner ∧ closer.closesLoop = true

theorem closedIn_of_depth_neg (h : depth tags < 0) : ClosedIn tags := by
  have hnegative : ¬NeverNegative tags := fun hnever ↦ absurd hnever.depth_nonneg (not_le.mpr h)
  obtain ⟨inner, closer, rest, rfl, hinner, hcloser⟩ := exists_first_negative hnegative
  obtain ⟨hdepth, hcloses⟩ := closesLoop_of_first_negative hinner hcloser
  exact ⟨inner, closer, rest, rfl, ⟨hinner, hdepth⟩, hcloses⟩

theorem NeverNegative.not_closedIn (h : NeverNegative tags) : ¬ClosedIn tags := by
  rintro ⟨inner, closer, rest, rfl, hinner, hcloses⟩
  have hcloser := (neverNegative_append.mp h).2 1
  rw [List.take_succ_cons, List.take_zero, hinner.depth_eq_zero,
    depth_singleton_of_closesLoop hcloses] at hcloser
  contradiction

/-- Whether a tag opens the innermost of the loops that are open behind the given tags: the loop is
not closed, and every loop that is opened behind it is. -/
def IsInnermostOpen (tags : List Tag) (tag : Tag) : Prop :=
  ∃ before behind, tags = before ++ tag :: behind ∧ tag.opensLoop = true ∧ ¬ClosedIn behind ∧
    ∀ skipped other rest, behind = skipped ++ other :: rest → other.opensLoop = true → ClosedIn rest

theorem IsInnermostOpen.unique {other : Tag} (h : IsInnermostOpen tags tag)
    (hother : IsInnermostOpen tags other) : tag = other := by
  obtain ⟨before, behind, rfl, hopens, hopen, hlast⟩ := h
  obtain ⟨before', behind', heq, hopens', hopen', hlast'⟩ := hother
  rcases List.append_eq_append_iff.mp heq with ⟨skipped, rfl, hbehind⟩ | ⟨skipped, rfl, hbehind⟩
  · cases skipped with
    | nil => exact (List.cons.inj hbehind).1
    | cons first skipped =>
      obtain ⟨rfl, rfl⟩ := List.cons.inj hbehind
      exact absurd (hlast skipped other behind' rfl hopens') hopen'
  · cases skipped with
    | nil => exact (List.cons.inj hbehind).1.symm
    | cons first skipped =>
      obtain ⟨rfl, rfl⟩ := List.cons.inj hbehind
      exact absurd (hlast' skipped tag behind rfl hopens) hopen

/-- Whether the loops that are open behind tags are those that were opened by the given tags,
innermost first: between any two of them, before the first and behind the last the tags are
balanced. -/
inductive Pending : List Tag → List Tag → Prop
  | top {tags : List Tag} : Balanced tags → Pending tags []
  | inLoop {tags opened inner : List Tag} {top : Tag} : Pending tags opened →
    top.opensLoop = true → Balanced inner → Pending (tags ++ top :: inner) (top :: opened)

namespace Pending

/-- Balanced tags open no loop and close none. -/
theorem append (h : Pending tags opened) (hmore : Balanced more) :
    Pending (tags ++ more) opened := by
  cases h with
  | top htags => exact .top (htags.append hmore)
  | inLoop h htop hinner =>
    rw [List.append_assoc, List.cons_append]
    exact .inLoop h htop (hinner.append hmore)

theorem openLoop (h : Pending tags opened) (htag : tag.opensLoop = true) :
    Pending (tags ++ [tag]) (tag :: opened) := .inLoop h htag balanced_nil

theorem closeLoop (h : Pending tags (top :: opened)) (htag : tag.closesLoop = true) :
    Pending (tags ++ [tag]) opened := by
  cases h with
  | inLoop h htop hinner =>
    rw [List.append_assoc, List.cons_append]
    exact h.append (hinner.loop htop htag)

theorem depth_eq (h : Pending tags opened) : depth tags = opened.length := by
  induction h with
  | top htags => exact htags.depth_eq_zero
  | inLoop _ htop hinner ih =>
    rw [depth_append, depth_cons, depth_singleton_of_opensLoop htop, hinner.depth_eq_zero, ih,
      List.length_cons]
    push_cast
    ring

theorem neverNegative (h : Pending tags opened) : NeverNegative tags := by
  induction h with
  | top htags => exact htags.neverNegative
  | inLoop _ htop hinner ih =>
    exact ih.append (neverNegative_cons_of_opensLoop htop hinner.neverNegative)

/-- The loop that was opened last, of those that are open, is the innermost. -/
theorem isInnermostOpen (h : Pending tags (top :: opened)) : IsInnermostOpen tags top := by
  cases h with
  | @inLoop tags _ inner _ _ htop hinner =>
    refine ⟨tags, inner, rfl, htop, hinner.neverNegative.not_closedIn, ?_⟩
    rintro skipped other rest rfl hother
    -- What is behind the other tag has to make up for it.
    have hskipped := (neverNegative_append.mp hinner.neverNegative).1.depth_nonneg
    have hdepth := hinner.depth_eq_zero
    rw [depth_append, depth_cons, depth_singleton_of_opensLoop hother] at hdepth
    exact closedIn_of_depth_neg (by omega)

end Pending

end Tag

end TagTemplate
