import TagTemplate.Proofs.Document.Effects
import TagTemplate.Proofs.Document.Formatting

/-!
# What is under construction holds all tokens so far

Reading a source takes tokens and keeps finished nodes and open loops, and from these the tokens can
be had back. A finished node has the tokens of its tags and of its children. An open loop has those
of its FOR tag and of its children so far, and no END tag yet. The tokens of a document under
construction are then those of the nodes at the top level and of the open loops from the outermost
to the innermost (`Builder.kinds`).

This is the invariant of reading (`Builder.IsMadeOf`): wherever reading goes on between tags, the
tokens of what is under construction are the tokens that have been taken, but for FOR and END, which
may have been in small letters. Nothing is said of how reading ends, so it holds in a source with an
error as well, up to the error.

A node that is appended has its tokens added at the end, wherever the end is. To open a loop adds
the tokens of its tag. To close one moves a whole list of nodes from the stack into the loop around
it, but the order of the tokens is the same there, and an END tag comes behind them. The places of
open loops are part of the invariant: each is that of the token which opened the FOR tag, before
which there are the tokens of everything around the loop.
-/

namespace TagTemplate

/-! ## Tokens of nodes -/

/-- The tokens of nodes and of everything below them, with FOR and END in capitals. -/
def Node.kinds : List Node → List TokenKind
  | [] => []
  | .text content :: nodes => .text content :: kinds nodes
  | .echo elements :: nodes => tagKinds "=" elements ++ kinds nodes
  | .loop header children :: nodes =>
    tagKinds "FOR" header.elements ++ (kinds children ++ (tagKinds "END" [] ++ kinds nodes))

theorem Node.kinds_append (nodes more : List Node) :
    kinds (nodes ++ more) = kinds nodes ++ kinds more := by
  induction nodes using Node.induction with
  | nil => rw [List.nil_append, kinds, List.nil_append]
  | text content nodes ih => rw [List.cons_append, kinds, kinds, ih, List.cons_append]
  | echo elements nodes ih => rw [List.cons_append, kinds, kinds, ih, List.append_assoc]
  | loop header children nodes _ ih =>
    rw [List.cons_append, kinds, kinds, ih]
    simp only [List.append_assoc]

/-- The tokens of an open loop, which has no END tag yet. -/
def OpenLoop.kinds (frame : OpenLoop) : List TokenKind :=
  tagKinds "FOR" frame.header.elements ++ Node.kinds frame.children.reverse

theorem OpenLoop.kinds_toNode (frame : OpenLoop) :
    Node.kinds [frame.toNode] = frame.kinds ++ tagKinds "END" [] := by
  rw [toNode, Node.kinds, Node.kinds, kinds, List.append_nil, List.append_assoc]

namespace Builder

/-- The tokens of a document under construction, with FOR and END in capitals. -/
def kinds (builder : Builder) : List TokenKind :=
  Node.kinds builder.root.reverse ++ builder.openLoops.reverse.flatMap OpenLoop.kinds

theorem kinds_cons (root : List Node) (frame : OpenLoop) (frames : List OpenLoop) :
    kinds ⟨root, frame :: frames⟩ = kinds ⟨root, frames⟩ ++ frame.kinds := by
  rw [kinds, kinds, List.reverse_cons, List.flatMap_append, List.flatMap_singleton,
    List.append_assoc]

theorem kinds_append (builder : Builder) (node : Node) :
    (builder.append node).kinds = builder.kinds ++ Node.kinds [node] := by
  obtain ⟨root, frames⟩ := builder
  cases frames with
  | nil =>
    rw [append, kinds, kinds, List.reverse_cons, Node.kinds_append, List.reverse_nil,
      List.flatMap_nil, List.append_nil, List.append_nil]
  | cons frame frames =>
    have hframe : OpenLoop.kinds { frame with children := node :: frame.children }
        = frame.kinds ++ Node.kinds [node] := by
      rw [OpenLoop.kinds, OpenLoop.kinds, List.reverse_cons, Node.kinds_append, List.append_assoc]
    rw [append, kinds_cons, kinds_cons, hframe, List.append_assoc]

theorem kinds_openLoop (builder : Builder) (header : LoopHeader) (opening : Position) :
    (builder.openLoop header opening).kinds
      = builder.kinds ++ tagKinds "FOR" header.elements := by
  rw [openLoop, kinds_cons, OpenLoop.kinds, List.reverse_nil, Node.kinds, List.append_nil]

theorem kinds_closeLoop? {builder closed : Builder} (h : builder.closeLoop? = some closed) :
    closed.kinds = builder.kinds ++ tagKinds "END" [] := by
  obtain ⟨root, frames⟩ := builder
  cases frames with
  | nil => contradiction
  | cons frame frames =>
    obtain rfl := Option.some.inj h
    rw [kinds_append, kinds_cons, OpenLoop.kinds_toNode, List.append_assoc]

/-! ## Places of open loops -/

/-- Whether each open loop has the place of the token which opened its tag: before that there are
the tokens of the nodes at the top level and of the loops around it. -/
def OpenedBy (builder : Builder) (tokens : List Token) : Prop :=
  ∀ frame outer, frame :: outer <:+ builder.openLoops →
    ∃ (before : List Token) (start : Token) (behind : List Token),
      tokens = before ++ start :: behind ∧
      kinds ⟨builder.root, outer⟩ = before.map (·.kind.inCapitals) ∧
      start.kind = .tagStart ∧ frame.opening = start.start

namespace OpenedBy

variable {builder : Builder} {tokens : List Token}

theorem more (h : builder.OpenedBy tokens) (more : List Token) :
    builder.OpenedBy (tokens ++ more) := by
  intro frame outer hframe
  obtain ⟨before, start, behind, rfl, hbefore, hstart, hopening⟩ := h frame outer hframe
  refine ⟨before, start, behind ++ more, ?_, hbefore, hstart, hopening⟩
  rw [List.append_assoc, List.cons_append]

theorem append (h : builder.OpenedBy tokens) (node : Node) :
    (builder.append node).OpenedBy tokens := by
  obtain ⟨root, frames⟩ := builder
  cases frames with
  | nil =>
    intro frame outer hframe
    exact absurd (List.suffix_nil.mp hframe) (List.cons_ne_nil _ _)
  | cons top frames =>
    intro frame outer hframe
    rcases List.suffix_cons_iff.mp hframe with heq | hsuffix
    · obtain ⟨rfl, rfl⟩ := List.cons.inj heq
      exact h top _ (List.suffix_refl _)
    · exact h frame outer (hsuffix.trans (List.suffix_cons _ _))

theorem closeLoop (h : builder.OpenedBy tokens) {closed : Builder}
    (hclosed : builder.closeLoop? = some closed) : closed.OpenedBy tokens := by
  obtain ⟨root, frames⟩ := builder
  cases frames with
  | nil => contradiction
  | cons top frames =>
    obtain rfl := Option.some.inj hclosed
    have houter : OpenedBy ⟨root, frames⟩ tokens := fun frame outer hframe ↦
      h frame outer (hframe.trans (List.suffix_cons _ _))
    exact houter.append _

theorem openLoop (h : builder.OpenedBy tokens)
    (hkinds : builder.kinds = tokens.map (·.kind.inCapitals)) {start : Token}
    (hstart : start.kind = .tagStart) (header : LoopHeader) (behind : List Token) :
    (builder.openLoop header start.start).OpenedBy (tokens ++ start :: behind) := by
  intro frame outer hframe
  rcases List.suffix_cons_iff.mp hframe with heq | hsuffix
  · obtain ⟨rfl, rfl⟩ := List.cons.inj heq
    exact ⟨tokens, start, behind, rfl, hkinds, hstart, rfl⟩
  · exact h.more _ frame outer hsuffix

end OpenedBy

/-! ## The invariant -/

/-- Whether a document under construction holds the given tokens and has its loops from them. -/
structure IsMadeOf (builder : Builder) (tokens : List Token) : Prop where
  /-- Its tokens are these, but for small letters in FOR and END. -/
  kinds_eq : builder.kinds = tokens.map (·.kind.inCapitals)
  /-- Its loops were opened by some of them. -/
  openedBy : builder.OpenedBy tokens

theorem isMadeOf_empty : empty.IsMadeOf [] where
  kinds_eq := by rw [kinds, empty, List.reverse_nil, List.reverse_nil, Node.kinds]; rfl
  openedBy := fun _ _ hframe ↦ absurd (List.suffix_nil.mp hframe) (List.cons_ne_nil _ _)

namespace IsMadeOf

variable {builder changed : Builder} {tokens more : List Token}

theorem append (h : builder.IsMadeOf tokens) {node : Node}
    (hnode : Node.kinds [node] = more.map (·.kind.inCapitals)) :
    (builder.append node).IsMadeOf (tokens ++ more) where
  kinds_eq := by rw [kinds_append, h.kinds_eq, hnode, List.map_append]
  openedBy := (h.openedBy.append node).more more

theorem openLoop (h : builder.IsMadeOf tokens) {header : LoopHeader} {start : Token}
    (hstart : start.kind = .tagStart)
    (htag : tagKinds "FOR" header.elements = (start :: more).map (·.kind.inCapitals)) :
    (builder.openLoop header start.start).IsMadeOf (tokens ++ start :: more) where
  kinds_eq := by rw [kinds_openLoop, h.kinds_eq, htag, List.map_append]
  openedBy := h.openedBy.openLoop h.kinds_eq hstart header more

theorem closeLoop (h : builder.IsMadeOf tokens) (hclosed : builder.closeLoop? = some changed)
    (htag : tagKinds "END" [] = more.map (·.kind.inCapitals)) :
    changed.IsMadeOf (tokens ++ more) where
  kinds_eq := by rw [kinds_closeLoop? hclosed, h.kinds_eq, htag, List.map_append]
  openedBy := (h.openedBy.closeLoop hclosed).more more

theorem text (h : builder.IsMadeOf tokens) {token : Token} {content : String}
    (hkind : token.kind = .text content) :
    (builder.append (.text content)).IsMadeOf (tokens ++ [token]) := by
  refine h.append ?_
  rw [List.map_singleton, hkind, Node.kinds, Node.kinds]
  rfl

/-- **One tag.** A tag that takes effect keeps the invariant, its tokens being added. -/
theorem apply (h : builder.IsMadeOf tokens) {start : Token} {name : String} {head : TagHead}
    {elements : List Element} (hkinds : (start :: more).map Token.kind = tagKinds name elements)
    (hname : TagHead.ofName? name = some head)
    (happly : head.apply start.start elements builder = .ok changed) :
    changed.IsMadeOf (tokens ++ start :: more) := by
  have hstart : start.kind = .tagStart := (List.cons.inj hkinds).1
  have htag : (start :: more).map (·.kind.inCapitals) = tagKinds (capitalHead name) elements := by
    rw [← map_inCapitals_tagKinds, ← hkinds, List.map_map]
    rfl
  rcases TagHead.apply_eq_ok_cases happly with ⟨rfl, -, rfl⟩ | ⟨header, rfl, rfl, -, rfl⟩ |
    ⟨rfl, rfl, hclosed⟩
  · obtain rfl := TagHead.ofName?_eq_echo_iff.mp hname
    refine h.append ?_
    rw [htag, capitalHead_equals, Node.kinds, Node.kinds, List.append_nil]
  · refine h.openLoop hstart ?_
    rw [htag, capitalHead_of_spellsFor (TagHead.ofName?_eq_loop_iff.mp hname)]
  · refine h.closeLoop hclosed ?_
    rw [htag, capitalHead_of_spellsEnd (TagHead.ofName?_eq_close_iff.mp hname)]

end IsMadeOf

end Builder

/-! ## Wherever reading goes on -/

namespace ReadsFrom

variable {source : String} {stream : TokenStream} {builder : Builder}

theorem parse_eq (h : ReadsFrom source stream builder) :
    Document.parse source = Builder.readFrom stream builder := by
  induction h with
  | start => rfl
  | text _ hnext hkind ih =>
    rw [ih, Reading.readFrom_eq_drive, Reading.drive_of_next_eq_ok hnext (by simp [hkind]),
      Reading.step, hkind, Reading.readFrom_eq_drive]
  | tag _ hnext hkind htag ih =>
    rw [ih, Reading.readFrom_eq_drive, Reading.drive_of_next_eq_ok hnext (by simp [hkind]),
      Reading.step, hkind, Reading.readFrom_eq_drive]
    dsimp only
    rw [Reading.drive_opened, htag]

/-- Wherever reading goes on between tags, what is under construction is made of the tokens so
far. -/
theorem exists_isMadeOf (h : ReadsFrom source stream builder) :
    ∃ tokens, (TokenStream.ofSource source).Yields tokens stream ∧ builder.IsMadeOf tokens :=
  h.exists_yields (motive := fun tokens builder ↦ builder.IsMadeOf tokens)
    Builder.isMadeOf_empty (fun hkind hmade ↦ hmade.text hkind)
    (fun hkinds hname happly hmade ↦ hmade.apply hkinds hname happly)

end ReadsFrom

/-- **Linearisation.** Wherever reading a source goes on between tags, the stream is in text, and
the tokens of what is under construction are all those that have been taken so far, but for FOR and
END, which are in capitals. The place of each open loop is that of the token which opens its tag,
the tokens before that one being those of what is around the loop. None of this depends on how
reading ends, and what becomes of the source is decided by what is left of it. -/
theorem construction_holds_tokens_so_far {source : String} {stream : TokenStream}
    {builder : Builder} (h : ReadsFrom source stream builder) :
    Document.parse source = Builder.readFrom stream builder ∧ stream.context = .text ∧
    ∃ tokens, (TokenStream.ofSource source).Yields tokens stream ∧
      builder.kinds = tokens.map (·.kind.inCapitals) ∧
      ∀ frame outer, frame :: outer <:+ builder.openLoops →
        ∃ (before : List Token) (start : Token) (behind : List Token),
          tokens = before ++ start :: behind ∧
          Builder.kinds ⟨builder.root, outer⟩ = before.map (·.kind.inCapitals) ∧
          start.kind = .tagStart ∧ frame.opening = start.start := by
  obtain ⟨tokens, hyields, hmade⟩ := h.exists_isMadeOf
  exact ⟨h.parse_eq, h.context, tokens, hyields, hmade.kinds_eq, hmade.openedBy⟩

/-- A source that breaks off in a tag within a loop. -/
def brokenOffSource : String := "a\x7b$For i 1 2$\x7db\x7b$"

/-- What is left of it before that tag. -/
def brokenOffStream : TokenStream := ⟨⟨['{', '$'], ⟨15, 1, 16⟩⟩, .text⟩

/-- What is under construction before that tag. -/
def brokenOffBuilder : Builder where
  root := [.text "a"]
  openLoops := [⟨⟨"i", .integer 1, .integer 2, none⟩, ⟨1, 1, 2⟩, [.text "b"]⟩]

theorem readsFrom_brokenOff : ReadsFrom brokenOffSource brokenOffStream brokenOffBuilder := by
  have ha : (TokenStream.ofSource brokenOffSource).next = (.ok ⟨.text "a", ⟨0, 1, 1⟩, ⟨1, 1, 2⟩⟩,
      ⟨⟨"\x7b$For i 1 2$\x7db\x7b$".toList, ⟨1, 1, 2⟩⟩, .text⟩) := by
    decide +kernel
  have hstart : (⟨⟨"\x7b$For i 1 2$\x7db\x7b$".toList, ⟨1, 1, 2⟩⟩, .text⟩ : TokenStream).next
      = (.ok ⟨.tagStart, ⟨1, 1, 2⟩, ⟨3, 1, 4⟩⟩,
        ⟨⟨"For i 1 2$\x7db\x7b$".toList, ⟨3, 1, 4⟩⟩, .tag ⟨1, 1, 2⟩ true⟩) := by
    decide +kernel
  have htag : readTag ⟨1, 1, 2⟩
      ⟨⟨"For i 1 2$\x7db\x7b$".toList, ⟨3, 1, 4⟩⟩, .tag ⟨1, 1, 2⟩ true⟩ ⟨[.text "a"], []⟩
        = .ok (⟨[.text "a"], [⟨⟨"i", .integer 1, .integer 2, none⟩, ⟨1, 1, 2⟩, []⟩]⟩,
          ⟨⟨['b', '{', '$'], ⟨14, 1, 15⟩⟩, .text⟩) := by
    decide +kernel
  have hb : (⟨⟨['b', '{', '$'], ⟨14, 1, 15⟩⟩, .text⟩ : TokenStream).next
      = (.ok ⟨.text "b", ⟨14, 1, 15⟩, ⟨15, 1, 16⟩⟩, brokenOffStream) := by
    decide +kernel
  exact .text (.tag (.text .start ha rfl) hstart rfl htag) hb rfl

/-- It is not read as a document, and still all tokens up to there are held, with FOR in capitals,
and the loop has the place of the second of them. -/
theorem construction_of_brokenOff :
    Document.parse brokenOffSource = .error ⟨.scan .unterminatedTag, ⟨15, 1, 16⟩⟩ ∧
    ∃ tokens, (TokenStream.ofSource brokenOffSource).Yields tokens brokenOffStream ∧
      tokens.map (·.kind.inCapitals) = .text "a" ::
        (tagKinds "FOR" [.variableName "i", .integer 1, .integer 2] ++ [.text "b"]) ∧
      ∃ (before : List Token) (start : Token) (behind : List Token),
        tokens = before ++ start :: behind ∧
        before.map (·.kind.inCapitals) = [.text "a"] ∧ start.kind = .tagStart ∧
        start.start = ⟨1, 1, 2⟩ := by
  obtain ⟨hparse, -, tokens, hyields, hkinds, hopened⟩ :=
    construction_holds_tokens_so_far readsFrom_brokenOff
  obtain ⟨before, start, behind, htokens, hbefore, hstart, hopening⟩ :=
    hopened _ [] (List.suffix_refl _)
  refine ⟨?_, tokens, hyields, ?_, before, start, behind, htokens, ?_, hstart, hopening.symm⟩
  · rw [hparse, Reading.readFrom_eq_drive]
    decide +kernel
  · rw [← hkinds]
    cbv
  · rw [← hbefore]
    cbv

end TagTemplate
