import TagTemplate.Proofs.Document.Failures
import TagTemplate.Proofs.Document.Nesting

/-!
# Whether loops are balanced

When all tags of a template are valid by themselves, what can still be wrong with it is the way its
loops are nested, and the depth of the tags decides that. The machine that reads documents keeps a
stack of open loops and does not count, so the two have to be kept in step: between tags the stack
holds the loops that are open behind the tags so far (`Builder.IsBehind`). One tag more keeps it so
unless the depth becomes negative, and then the machine stops at this tag
(`Reading.run_tag_of_isValid`). So by induction the machine takes all tokens if the depth never
becomes negative (`Reading.run_of_neverNegative`), and at the end the stack is as high as the depth
and has the innermost loop on top.
-/

namespace TagTemplate

variable {tags more : List Tag} {tag : Tag} {builder : Builder}

/-! ## Open loops and the tags that opened them -/

/-- Whether an open loop is the one that a tag opened. -/
structure OpenLoop.IsOpenedBy (frame : OpenLoop) (tag : Tag) : Prop where
  /-- It was opened where the tag is. -/
  opening_eq : frame.opening = tag.opening
  /-- Its header is in the tag. -/
  exists_kinds_eq : ∃ name, tag.kinds = Tag.loopKinds name frame.header

namespace Builder

/-- Whether the loops that are open in a document under construction are those that are open behind
the given tags. -/
def IsBehind (builder : Builder) (tags : List Tag) : Prop :=
  ∃ opened, Tag.Pending tags opened ∧
    List.Forall₂ OpenLoop.IsOpenedBy builder.openLoops opened

theorem isBehind_empty : empty.IsBehind [] := ⟨[], .top Tag.balanced_nil, .nil⟩

namespace IsBehind

theorem append_node (h : builder.IsBehind tags) (node : Node) :
    (builder.append node).IsBehind tags := by
  obtain ⟨root, frames⟩ := builder
  obtain ⟨opened, hpending, hframes⟩ := h
  refine ⟨opened, hpending, ?_⟩
  cases frames with
  | nil => exact hframes
  | cons frame frames =>
    obtain ⟨top, opened, hframe, hrest, rfl⟩ := List.forall₂_cons_left_iff.mp hframes
    exact .cons ⟨hframe.opening_eq, hframe.exists_kinds_eq⟩ hrest

theorem append (h : builder.IsBehind tags) (hmore : Tag.Balanced more) :
    builder.IsBehind (tags ++ more) := by
  obtain ⟨opened, hpending, hframes⟩ := h
  exact ⟨opened, hpending.append hmore, hframes⟩

theorem openLoop (h : builder.IsBehind tags) {opening : Position} {name : String}
    {header : LoopHeader} (hspells : SpellsFor name) :
    (builder.openLoop header opening).IsBehind
      (tags ++ [⟨opening, Tag.loopKinds name header⟩]) := by
  obtain ⟨opened, hpending, hframes⟩ := h
  exact ⟨_, hpending.openLoop (decide_eq_true hspells), .cons ⟨rfl, name, rfl⟩ hframes⟩

theorem closeLoop (h : builder.IsBehind tags) (htag : tag.closesLoop = true) :
    builder.closeLoop? = none ∧ Tag.depth (tags ++ [tag]) < 0 ∨
      ∃ closed, builder.closeLoop? = some closed ∧ closed.IsBehind (tags ++ [tag]) := by
  obtain ⟨root, frames⟩ := builder
  obtain ⟨opened, hpending, hframes⟩ := h
  rw [Tag.depth_append, Tag.depth_singleton_of_closesLoop htag]
  cases frames with
  | nil =>
    obtain rfl := List.forall₂_nil_left_iff.mp hframes
    refine Or.inl ⟨rfl, ?_⟩
    rw [hpending.depth_eq]
    decide
  | cons frame frames =>
    obtain ⟨top, opened, -, hrest, rfl⟩ := List.forall₂_cons_left_iff.mp hframes
    have hclosed : IsBehind ⟨root, frames⟩ (tags ++ [tag]) :=
      ⟨opened, hpending.closeLoop htag, hrest⟩
    exact Or.inr ⟨_, rfl, hclosed.append_node frame.toNode⟩

theorem neverNegative (h : builder.IsBehind tags) : Tag.NeverNegative tags := by
  obtain ⟨opened, hpending, -⟩ := h
  exact hpending.neverNegative

theorem exists_toDocument_of_depth_eq_zero (h : builder.IsBehind tags)
    (hdepth : Tag.depth tags = 0) : ∃ doc, builder.toDocument = .ok doc := by
  obtain ⟨root, frames⟩ := builder
  obtain ⟨opened, hpending, hframes⟩ := h
  rw [hpending.depth_eq, Nat.cast_eq_zero, ← hframes.length_eq, List.length_eq_zero_iff] at hdepth
  obtain rfl : frames = [] := hdepth
  exact ⟨_, rfl⟩

theorem toDocument_of_depth_pos (h : builder.IsBehind tags) (hdepth : 0 < Tag.depth tags) :
    ∃ tag, Tag.IsInnermostOpen tags tag ∧ ∃ name header, tag.kinds = Tag.loopKinds name header ∧
        builder.toDocument = .error ⟨.unclosedLoop header.counter, tag.opening⟩ := by
  obtain ⟨root, frames⟩ := builder
  obtain ⟨opened, hpending, hframes⟩ := h
  cases frames with
  | nil =>
    obtain rfl := List.forall₂_nil_left_iff.mp hframes
    rw [hpending.depth_eq] at hdepth
    contradiction
  | cons frame frames =>
    obtain ⟨top, opened, hframe, -, rfl⟩ := List.forall₂_cons_left_iff.mp hframes
    obtain ⟨name, hkinds⟩ := hframe.exists_kinds_eq
    refine ⟨top, hpending.isInnermostOpen, name, frame.header, hkinds, ?_⟩
    rw [← hframe.opening_eq]
    rfl

end IsBehind

end Builder

/-! ## The machine and the depth -/

namespace Reading

variable {start last : Token} {inner : List Token}

/-- **One tag.** A valid tag takes effect and keeps the open loops and the depth in step, unless the
depth becomes negative, and then it is reported. -/
theorem run_tag_of_isValid (h : builder.IsBehind tags) (hstart : start.kind = .tagStart)
    (hlast : last.kind = .tagEnd) (htag : tag = ⟨start.start, inner.map Token.kind⟩)
    (hvalid : tag.IsValid) :
    Tag.depth (tags ++ [tag]) < 0 ∧ (between builder).run (start :: (inner ++ [last]))
        = .error ⟨.unexpectedEnd, tag.opening⟩ ∨
      ∃ changed, (between builder).run (start :: (inner ++ [last])) = .ok (between changed) ∧
        changed.IsBehind (tags ++ [tag]) := by
  have hkinds : (start :: (inner ++ [last])).map Token.kind
      = .tagStart :: (tag.kinds ++ [.tagEnd]) := by
    rw [List.map_cons, List.map_append, List.map_singleton, hstart, hlast, htag]
  have hopening : start.start = tag.opening := by rw [htag]
  clear htag
  cases hvalid with
  | @echo opening elements hne =>
    have hdepth : Tag.depth [⟨opening, .tagHead "=" :: elements.map .element⟩] = 0 :=
      Tag.depth_singleton_of_neither (decide_eq_false not_spellsFor_equals)
        (decide_eq_false not_spellsEnd_equals)
    refine Or.inr ⟨builder.append (.echo elements), ?_,
      (h.append_node _).append (Tag.balanced_singleton hdepth)⟩
    rw [run_tag_cons hkinds (TagHead.ofName?_eq_echo_iff.mpr rfl), TagHead.apply_echo hne]
  | @loop opening name header hspells hbound =>
    refine Or.inr ⟨builder.openLoop header opening, ?_, h.openLoop hspells⟩
    rw [run_tag_cons hkinds (TagHead.ofName?_eq_loop_iff.mpr hspells), TagHead.apply_loop hbound,
      hopening]
  | @close opening name hspells =>
    have hkinds' : (start :: (inner ++ [last])).map Token.kind = tagKinds name [] := hkinds
    have hrun := run_tag_cons hkinds' (TagHead.ofName?_eq_close_iff.mpr hspells) builder
    have hcloses : Tag.closesLoop ⟨opening, [.tagHead name]⟩ = true := decide_eq_true hspells
    rcases h.closeLoop hcloses with ⟨hnone, hdepth⟩ | ⟨closed, hclosed, hbehind⟩
    · refine Or.inl ⟨hdepth, ?_⟩
      rw [hrun, TagHead.apply, hnone, hopening]
    · refine Or.inr ⟨closed, ?_, hbehind⟩
      rw [hrun, TagHead.apply_close hclosed]

/-- **All tags.** The machine takes the tokens of valid tags as long as the depth is not
negative. -/
theorem run_of_neverNegative {tokens : List Token} (htokens : Tag.Among tokens more)
    (hvalid : ∀ tag ∈ more, tag.IsValid) (h : builder.IsBehind tags)
    (hnever : Tag.NeverNegative (tags ++ more)) :
    ∃ changed, (between builder).run tokens = .ok (between changed) ∧
      changed.IsBehind (tags ++ more) := by
  induction htokens generalizing builder tags with
  | nil => exact ⟨builder, rfl, h.append Tag.balanced_nil⟩
  | @text token content tokens more hkind _ ih =>
    obtain ⟨changed, hrun, hchanged⟩ := ih hvalid (h.append_node (.text content)) hnever
    refine ⟨changed, ?_, hchanged⟩
    rw [run, step, hkind]
    exact hrun
  | @tag start last inner tokens more hstart hinner hlast _ ih =>
    rw [List.forall_mem_cons] at hvalid
    rw [List.append_cons tags] at hnever ⊢
    rcases run_tag_of_isValid h hstart hlast rfl hvalid.1 with ⟨hneg, -⟩ | ⟨next, hnext, hbehind⟩
    · exact absurd (Tag.neverNegative_append.mp hnever).1.depth_nonneg (not_le.mpr hneg)
    · obtain ⟨changed, hrun, hchanged⟩ := ih hvalid.2 hbehind hnever
      refine ⟨changed, ?_, hchanged⟩
      have hsplit : start :: (inner ++ last :: tokens) = start :: (inner ++ [last]) ++ tokens := by
        simp
      rw [hsplit, run_append, hnext]
      exact hrun

end Reading

/-! ## Documents -/

namespace Document

variable {source : String} {tokens : List Token}

theorem parse_of_neverNegative (htokens : tokenize source = .ok tokens)
    (hvalid : ∀ tag ∈ Tag.ofTokens tokens, tag.IsValid)
    (hnever : Tag.NeverNegative (Tag.ofTokens tokens)) :
    ∃ builder : Builder, builder.IsBehind (Tag.ofTokens tokens) ∧
      Document.parse source = builder.toDocument := by
  obtain ⟨others, last, htokens', hlast, hamong⟩ := Tag.exists_among_of_tokenize htokens
  obtain ⟨builder, hrun, hbehind⟩ :=
    Reading.run_of_neverNegative hamong hvalid Builder.isBehind_empty hnever
  refine ⟨builder, hbehind, ?_⟩
  rw [htokens'] at htokens
  rw [Document.parse_of_tokenize htokens hlast, hrun]
  rfl

theorem parse_of_first_negative (htokens : tokenize source = .ok tokens)
    (hvalid : ∀ tag ∈ Tag.ofTokens tokens, tag.IsValid) {before behind : List Tag} {tag : Tag}
    (htags : Tag.ofTokens tokens = before ++ tag :: behind) (hbefore : Tag.NeverNegative before)
    (hneg : Tag.depth (before ++ [tag]) < 0) :
    Document.parse source = .error ⟨.unexpectedEnd, tag.opening⟩ ∧
      ∃ upTo closer, upTo ++ [closer] <+: tokens ∧ closer.kind = .tagEnd ∧
        Tag.ofTokens (upTo ++ [closer]) = before ++ [tag] ∧
        ∀ other after, (TokenStream.ofSource other).Yields (upTo ++ [closer]) after →
          Document.parse other = .error ⟨.unexpectedEnd, tag.opening⟩ := by
  obtain ⟨others, last, rfl, -, hamong⟩ := Tag.exists_among_of_tokenize htokens
  rw [htags] at hamong hvalid
  rw [List.forall_mem_append, List.forall_mem_cons] at hvalid
  obtain ⟨seen, start, inner, closer, rest, rfl, hseen, hstart, hinner, hcloser, htag, -⟩ :=
    hamong.exists_split
  have hshape : seen ++ start :: inner ++ [closer] = seen ++ (start :: (inner ++ [closer])) := by
    simp
  have hwhole : seen ++ (start :: (inner ++ closer :: rest)) ++ [last]
      = seen ++ start :: inner ++ [closer] ++ (rest ++ [last]) := by simp
  have hstop : (Reading.between .empty).run (seen ++ start :: inner ++ [closer])
      = .error ⟨.unexpectedEnd, tag.opening⟩ := by
    obtain ⟨builder, hrun, hbehind⟩ :=
      Reading.run_of_neverNegative hseen hvalid.1 Builder.isBehind_empty hbefore
    rw [hshape, Reading.run_append, hrun]
    rcases Reading.run_tag_of_isValid hbehind hstart hcloser htag hvalid.2.1 with
      ⟨-, herror⟩ | ⟨_, -, hnext⟩
    · exact herror
    · exact absurd hnext.neverNegative.depth_nonneg (not_le.mpr hneg)
  rw [hwhole] at htokens ⊢
  obtain ⟨after, hyields, hkinds, -⟩ :=
    TokenStream.exists_yields_of_collect_ok htokens (by simp)
  have hparse (other : String) (after : TokenStream)
      (hother : (TokenStream.ofSource other).Yields (seen ++ start :: inner ++ [closer]) after) :
      Document.parse other = .error ⟨.unexpectedEnd, tag.opening⟩ := by
    rw [Document.parse_of_yields hother hkinds, hstop]
  refine ⟨hparse source after hyields, _, closer, List.prefix_append _ _, hcloser, ?_, hparse⟩
  have hupTo := hseen.append (.tag hstart hinner hcloser .nil)
  rw [hshape, hupTo.ofTokens_eq, htag]

end Document

/-- **Balance.** When all tags of a source are valid by themselves, their depth decides what becomes
of it. It is read as a document if the depth is never negative and 0 at the end. Where the depth
becomes negative for the first time a loop is closed that is not open, and this is reported at the
tag, whatever follows it. And if the depth is never negative and positive at the end, the innermost
loop that is still open is reported. -/
theorem parse_by_depth {source : String} {tokens : List Token}
    (htokens : tokenize source = .ok tokens)
    (hvalid : ∀ tag ∈ Tag.ofTokens tokens, tag.IsValid) :
    ((∃ doc, Document.parse source = .ok doc) ↔
      Tag.NeverNegative (Tag.ofTokens tokens) ∧ Tag.depth (Tag.ofTokens tokens) = 0) ∧
    (∀ before tag behind, Tag.ofTokens tokens = before ++ tag :: behind →
      Tag.NeverNegative before → Tag.depth (before ++ [tag]) < 0 →
      Document.parse source = .error ⟨.unexpectedEnd, tag.opening⟩ ∧
        ∃ upTo closer, upTo ++ [closer] <+: tokens ∧ closer.kind = .tagEnd ∧
          Tag.ofTokens (upTo ++ [closer]) = before ++ [tag] ∧
          ∀ other after, (TokenStream.ofSource other).Yields (upTo ++ [closer]) after →
            Document.parse other = .error ⟨.unexpectedEnd, tag.opening⟩) ∧
    (Tag.NeverNegative (Tag.ofTokens tokens) → 0 < Tag.depth (Tag.ofTokens tokens) →
      (∃ tag, Tag.IsInnermostOpen (Tag.ofTokens tokens) tag) ∧
      ∀ tag, Tag.IsInnermostOpen (Tag.ofTokens tokens) tag →
        ∃ name header, tag.kinds = Tag.loopKinds name header ∧
          Document.parse source = .error ⟨.unclosedLoop header.counter, tag.opening⟩) := by
  refine ⟨⟨?_, ?_⟩, fun before tag behind ↦ Document.parse_of_first_negative htokens hvalid, ?_⟩
  · rintro ⟨doc, hdoc⟩
    have hnever : Tag.NeverNegative (Tag.ofTokens tokens) := by
      by_contra hnegative
      obtain ⟨before, tag, behind, htags, hbefore, hneg⟩ := Tag.exists_first_negative hnegative
      obtain ⟨herror, -⟩ := Document.parse_of_first_negative htokens hvalid htags hbefore hneg
      rw [hdoc] at herror
      contradiction
    obtain ⟨builder, hbehind, hparse⟩ := Document.parse_of_neverNegative htokens hvalid hnever
    refine ⟨hnever, hnever.depth_nonneg.antisymm' (not_lt.mp fun hpos ↦ ?_)⟩
    obtain ⟨tag, -, name, header, -, herror⟩ := hbehind.toDocument_of_depth_pos hpos
    rw [hdoc, herror] at hparse
    contradiction
  · rintro ⟨hnever, hdepth⟩
    obtain ⟨builder, hbehind, hparse⟩ := Document.parse_of_neverNegative htokens hvalid hnever
    rw [hparse]
    exact hbehind.exists_toDocument_of_depth_eq_zero hdepth
  · intro hnever hpos
    obtain ⟨builder, hbehind, hparse⟩ := Document.parse_of_neverNegative htokens hvalid hnever
    obtain ⟨top, htop, name, header, hkinds, herror⟩ := hbehind.toDocument_of_depth_pos hpos
    refine ⟨⟨top, htop⟩, fun tag htag ↦ ⟨name, header, ?_, ?_⟩⟩
    · rw [htag.unique htop, hkinds]
    · rw [htag.unique htop, hparse, herror]

/-! ## Loops that are opened and closed again -/

namespace Tag

/-- The header of a loop from 1 to 2. -/
def oneToTwo (counter : String) : LoopHeader := ⟨counter, .integer 1, .integer 2, none⟩

/-- A FOR tag at an offset in the first line. -/
def forAt (p : ℕ) (counter : String) : Tag := ⟨⟨p, 1, p + 1⟩, loopKinds "For" (oneToTwo counter)⟩

/-- Its tokens, with a counter of one letter. -/
def forTokens (p : ℕ) (counter : String) : List Token :=
  [⟨.tagStart, ⟨p, 1, p + 1⟩, ⟨p + 2, 1, p + 3⟩⟩,
    ⟨.tagHead "For", ⟨p + 2, 1, p + 3⟩, ⟨p + 5, 1, p + 6⟩⟩,
    ⟨.element (.variableName counter), ⟨p + 6, 1, p + 7⟩, ⟨p + 7, 1, p + 8⟩⟩,
    ⟨.element (.integer 1), ⟨p + 8, 1, p + 9⟩, ⟨p + 9, 1, p + 10⟩⟩,
    ⟨.element (.integer 2), ⟨p + 10, 1, p + 11⟩, ⟨p + 11, 1, p + 12⟩⟩,
    ⟨.tagEnd, ⟨p + 11, 1, p + 12⟩, ⟨p + 13, 1, p + 14⟩⟩]

/-- An END tag at an offset in the first line. -/
def endAt (p : ℕ) : Tag := ⟨⟨p, 1, p + 1⟩, [.tagHead "End"]⟩

/-- Its tokens. -/
def endTokens (p : ℕ) : List Token :=
  [⟨.tagStart, ⟨p, 1, p + 1⟩, ⟨p + 2, 1, p + 3⟩⟩,
    ⟨.tagHead "End", ⟨p + 2, 1, p + 3⟩, ⟨p + 5, 1, p + 6⟩⟩,
    ⟨.tagEnd, ⟨p + 5, 1, p + 6⟩, ⟨p + 7, 1, p + 8⟩⟩]

end Tag

/-- Two loops that stay open, each with a loop in it that is closed again. -/
def reopenedLoops : String :=
  "\x7b$For i 1 2$\x7d\x7b$For j 1 2$\x7d\x7b$End$\x7d" ++
    "\x7b$For k 1 2$\x7d\x7b$For m 1 2$\x7d\x7b$End$\x7d"

/-- The second of the loops that stay open is reported, and not the one that was opened last. -/
theorem parse_by_depth_of_open : ∃ tokens,
    tokenize reopenedLoops = .ok tokens ∧ (∀ tag ∈ Tag.ofTokens tokens, tag.IsValid) ∧
      Document.parse reopenedLoops = .error ⟨.unclosedLoop "k", ⟨33, 1, 34⟩⟩ := by
  have htokens : tokenize reopenedLoops = .ok
      (Tag.forTokens 0 "i" ++ Tag.forTokens 13 "j" ++ Tag.endTokens 26 ++ Tag.forTokens 33 "k"
        ++ Tag.forTokens 46 "m" ++ Tag.endTokens 59
        ++ [⟨.endOfInput, ⟨66, 1, 67⟩, ⟨66, 1, 67⟩⟩]) := by
    decide +kernel
  have hfor (p : ℕ) (counter : String) : (Tag.forAt p counter).IsValid :=
    .loop _ rfl (List.forall_mem_cons.mpr ⟨.integer 1, List.forall_mem_singleton.mpr (.integer 2)⟩)
  have hend (p : ℕ) : (Tag.endAt p).IsValid := .close _ rfl
  have hvalid : ∀ tag ∈ [Tag.forAt 0 "i", Tag.forAt 13 "j", Tag.endAt 26, Tag.forAt 33 "k",
      Tag.forAt 46 "m", Tag.endAt 59], tag.IsValid := by
    simp [hfor, hend]
  -- One tag after the other, with the loops that are open behind it, innermost first.
  have hi : Tag.Pending [Tag.forAt 0 "i"] [Tag.forAt 0 "i"] :=
    (Tag.Pending.top Tag.balanced_nil).openLoop rfl
  have hj : Tag.Pending [Tag.forAt 0 "i", Tag.forAt 13 "j"] [Tag.forAt 13 "j", Tag.forAt 0 "i"] :=
    hi.openLoop rfl
  have hk : Tag.Pending [Tag.forAt 0 "i", Tag.forAt 13 "j", Tag.endAt 26, Tag.forAt 33 "k"]
      [Tag.forAt 33 "k", Tag.forAt 0 "i"] := (hj.closeLoop rfl).openLoop rfl
  have hm : Tag.Pending [Tag.forAt 0 "i", Tag.forAt 13 "j", Tag.endAt 26, Tag.forAt 33 "k",
      Tag.forAt 46 "m"] [Tag.forAt 46 "m", Tag.forAt 33 "k", Tag.forAt 0 "i"] := hk.openLoop rfl
  have hpending : Tag.Pending [Tag.forAt 0 "i", Tag.forAt 13 "j", Tag.endAt 26, Tag.forAt 33 "k",
      Tag.forAt 46 "m", Tag.endAt 59] [Tag.forAt 33 "k", Tag.forAt 0 "i"] := hm.closeLoop rfl
  have hdepth := hpending.depth_eq.trans_gt two_pos
  obtain ⟨-, -, hopen⟩ := parse_by_depth htokens hvalid
  obtain ⟨-, hreport⟩ := hopen hpending.neverNegative hdepth
  obtain ⟨name, header, hkinds, herror⟩ := hreport _ hpending.isInnermostOpen
  have helements : (Tag.oneToTwo "k").elements = header.elements :=
    List.map_injective_iff.mpr (fun _ _ ↦ TokenKind.element.inj) (List.cons.inj hkinds).2
  obtain rfl := LoopHeader.elements_inj helements
  exact ⟨_, htokens, hvalid, herror⟩

end TagTemplate
