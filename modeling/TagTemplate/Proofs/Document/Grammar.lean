import TagTemplate.Proofs.Document.Reading

/-!
# The grammar of documents

A document derives from the tokens of a template by a grammar in which loops are nested, and a
`Derivation` is a tree of that grammar: it has the kinds of the tokens that it derives from
(`Derivation.kinds`) and the nodes that it derives (`Derivation.nodes`). Only proper trees can be
made, since each constructor asks for what its rule asks for.

The machine that reads documents knows of no trees. It has a stack of open loops, and that it
follows the grammar all the same is seen in two ways. Told the tokens of a derivation, it appends
the nodes to whatever is under construction (`Reading.run_derivation`). And whatever it has been
told, what is under construction is made of derivations: one for the nodes at the top level, and
one for the children of each open loop (`Consumed`), so that at the end there is one for all.
-/

namespace TagTemplate

/-! ## Heads and bounds -/

/-- Whether a name is FOR, in any mixture of capital and small letters. -/
def SpellsFor (name : String) : Prop := name.toList.map Char.toLower = ['f', 'o', 'r']

/-- Whether a name is END, in any mixture of capital and small letters. -/
def SpellsEnd (name : String) : Prop := name.toList.map Char.toLower = ['e', 'n', 'd']

instance (name : String) : Decidable (SpellsFor name) := inferInstanceAs (Decidable (_ = _))

instance (name : String) : Decidable (SpellsEnd name) := inferInstanceAs (Decidable (_ = _))

/-- The elements that can be where a loop starts or stops, or its step. -/
inductive IsBound : Element → Prop
  | integer (value : Int64) : IsBound (.integer value)
  | double (value : Binary64) : IsBound (.double value)
  | string (content : String) : IsBound (.string content)
  | variableName (name : String) : IsBound (.variableName name)

theorem isBound_iff {e : Element} : IsBound e ↔ e.isLoopBound = true := by
  constructor
  · rintro ⟨⟩ <;> rfl
  · intro h
    cases e with
    | integer value => exact .integer value
    | double value => exact .double value
    | string content => exact .string content
    | variableName name => exact .variableName name
    | functionName name => contradiction
    | operator op => contradiction

namespace TagHead

theorem ofName?_eq_echo_iff {name : String} : ofName? name = some echo ↔ name = "=" := by
  rw [ofName?]
  split
  · simp [*]
  · split <;> simp [*]

theorem ofName?_eq_loop_iff {name : String} : ofName? name = some loop ↔ SpellsFor name := by
  rw [ofName?, SpellsFor]
  split
  · rename_i h
    subst h
    simp
  · split <;> simp_all

theorem ofName?_eq_close_iff {name : String} : ofName? name = some close ↔ SpellsEnd name := by
  rw [ofName?, SpellsEnd]
  split
  · rename_i h
    subst h
    simp
  · split <;> simp_all

theorem ofToken?_eq_some_iff {kind : TokenKind} {head : TagHead} :
    ofToken? kind = some head ↔ ∃ name, kind = .tagHead name ∧ ofName? name = some head := by
  cases kind <;> simp [ofToken?]

end TagHead

namespace LoopHeader

/-- The elements of the tag at the top of a loop. -/
def elements (header : LoopHeader) : List Element := .variableName header.counter :: header.bounds

theorem elements_inj {header header' : LoopHeader} (h : header.elements = header'.elements) :
    header = header' := by
  obtain ⟨counter, start, stop, step⟩ := header
  obtain ⟨counter', start', stop', step'⟩ := header'
  cases step <;> cases step' <;> simp_all [elements, bounds]

private theorem find?_eq_none_iff {elements : List Element} :
    elements.find? (!·.isLoopBound) = none ↔ ∀ e ∈ elements, IsBound e := by
  rw [List.find?_eq_none]
  refine forall₂_congr fun e _ ↦ ?_
  rw [isBound_iff, Bool.not_eq_true', Bool.not_eq_false]

private theorem checked_eq_ok_iff {counter start stop : Element} {step : Option Element}
    {header : LoopHeader} : checked counter start stop step = .ok header ↔
      counter = .variableName header.counter ∧ start = header.start ∧ stop = header.stop ∧
        step = header.step ∧ ∀ e ∈ header.bounds, IsBound e := by
  cases counter with
  | variableName name =>
    rw [checked]
    cases hfind : (LoopHeader.bounds ⟨name, start, stop, step⟩).find? (!·.isLoopBound) with
    | none =>
      rw [find?_eq_none_iff] at hfind
      constructor
      · intro h
        obtain rfl := Except.ok.inj h
        exact ⟨rfl, rfl, rfl, rfl, hfind⟩
      · rintro ⟨hname, rfl, rfl, rfl, -⟩
        obtain rfl := Element.variableName.inj hname
        rfl
    | some e =>
      refine iff_of_false nofun ?_
      rintro ⟨hname, rfl, rfl, rfl, hbound⟩
      obtain rfl := Element.variableName.inj hname
      rw [find?_eq_none_iff.mpr hbound] at hfind
      contradiction
  | _ => exact iff_of_false nofun (fun h ↦ nomatch h.1)

theorem ofElements_eq_ok_iff {elements : List Element} {header : LoopHeader} :
    ofElements elements = .ok header ↔
      elements = header.elements ∧ ∀ e ∈ header.bounds, IsBound e := by
  constructor
  · intro h
    unfold ofElements at h
    split at h
    · obtain ⟨rfl, rfl, rfl, hstep, hbound⟩ := checked_eq_ok_iff.mp h
      exact ⟨by rw [LoopHeader.elements, bounds, ← hstep]; rfl, hbound⟩
    · obtain ⟨rfl, rfl, rfl, hstep, hbound⟩ := checked_eq_ok_iff.mp h
      exact ⟨by rw [LoopHeader.elements, bounds, ← hstep]; rfl, hbound⟩
    · contradiction
  · rintro ⟨rfl, hbound⟩
    obtain ⟨counter, start, stop, step⟩ := header
    cases step with
    | none => exact checked_eq_ok_iff.mpr ⟨rfl, rfl, rfl, rfl, hbound⟩
    | some step => exact checked_eq_ok_iff.mpr ⟨rfl, rfl, rfl, rfl, hbound⟩

end LoopHeader

/-! ## Derivations -/

/-- The kinds of the tokens of a tag. -/
def tagKinds (name : String) (elements : List Element) : List TokenKind :=
  .tagStart :: .tagHead name :: (elements.map .element ++ [.tagEnd])

/-- A tree of the grammar: text, echo tags with elements, and loops between a FOR tag, which has a
variable, two bounds and a step or none, and an END tag. -/
inductive Derivation where
  /-- Nothing more. -/
  | done
  /-- Text, and then the rest. -/
  | text (content : String) (rest : Derivation)
  /-- An echo tag, and then the rest. -/
  | echo (elements : List Element) (ne_nil : elements ≠ []) (rest : Derivation)
  /-- A loop with its two tags, and then the rest. -/
  | loop (opener : String) (spellsFor : SpellsFor opener) (header : LoopHeader)
    (isBound : ∀ e ∈ header.bounds, IsBound e) (body : Derivation) (closer : String)
    (spellsEnd : SpellsEnd closer) (rest : Derivation)

namespace Derivation

/-- The kinds of the tokens that a derivation is from. -/
def kinds : Derivation → List TokenKind
  | done => []
  | text content rest => .text content :: rest.kinds
  | echo elements _ rest => tagKinds "=" elements ++ rest.kinds
  | loop opener _ header _ body closer _ rest =>
    tagKinds opener header.elements ++ (body.kinds ++ (tagKinds closer [] ++ rest.kinds))

/-- The nodes that are derived. -/
def nodes : Derivation → List Node
  | done => []
  | text content rest => .text content :: rest.nodes
  | echo elements _ rest => .echo elements :: rest.nodes
  | loop _ _ header _ body _ _ rest => .loop header body.nodes :: rest.nodes

/-- Two derivations, one after the other. -/
def append : Derivation → Derivation → Derivation
  | done, more => more
  | text content rest, more => text content (rest.append more)
  | echo elements ne_nil rest, more => echo elements ne_nil (rest.append more)
  | loop opener spellsFor header isBound body closer spellsEnd rest, more =>
    loop opener spellsFor header isBound body closer spellsEnd (rest.append more)

theorem kinds_append (t u : Derivation) : (t.append u).kinds = t.kinds ++ u.kinds := by
  induction t with
  | done => rfl
  | text _ rest ih => rw [append, kinds, kinds, ih, List.cons_append]
  | echo _ _ rest ih => rw [append, kinds, kinds, ih, List.append_assoc]
  | loop _ _ _ _ _ _ _ rest _ ih =>
    rw [append, kinds, kinds, ih, List.append_assoc, List.append_assoc, List.append_assoc]

theorem nodes_append (t u : Derivation) : (t.append u).nodes = t.nodes ++ u.nodes := by
  induction t with
  | done => rfl
  | text _ rest ih => rw [append, nodes, nodes, ih, List.cons_append]
  | echo _ _ rest ih => rw [append, nodes, nodes, ih, List.cons_append]
  | loop _ _ _ _ _ _ _ rest _ ih => rw [append, nodes, nodes, ih, List.cons_append]

end Derivation

/-! ## The machine is told a derivation -/

namespace TagHead

variable {opening : Position} {builder : Builder}

theorem apply_echo {elements : List Element} (h : elements ≠ []) :
    echo.apply opening elements builder = .ok (builder.append (.echo elements)) := by
  obtain ⟨e, es, rfl⟩ := List.exists_cons_of_ne_nil h
  rfl

theorem apply_loop {header : LoopHeader} (h : ∀ e ∈ header.bounds, IsBound e) :
    loop.apply opening header.elements builder = .ok (builder.openLoop header opening) := by
  rw [apply, LoopHeader.ofElements_eq_ok_iff.mpr ⟨rfl, h⟩]

theorem apply_close {closed : Builder} (h : builder.closeLoop? = some closed) :
    close.apply opening [] builder = .ok closed := by
  rw [apply, h]

/-- A tag that takes effect appends an echo, opens a loop or closes one. -/
theorem apply_eq_ok_cases {head : TagHead} {elements : List Element} {changed : Builder}
    (h : head.apply opening elements builder = .ok changed) :
    (head = echo ∧ elements ≠ [] ∧ changed = builder.append (.echo elements)) ∨
    (∃ header, head = loop ∧ elements = header.elements ∧ (∀ e ∈ header.bounds, IsBound e) ∧
      changed = builder.openLoop header opening) ∨
    (head = close ∧ elements = [] ∧ builder.closeLoop? = some changed) := by
  cases head with
  | echo =>
    by_cases hne : elements = []
    · subst hne
      contradiction
    · rw [apply_echo hne] at h
      exact Or.inl ⟨rfl, hne, (Except.ok.inj h).symm⟩
  | loop =>
    rw [apply] at h
    split at h
    · contradiction
    · rename_i header hheader
      obtain ⟨helements, hbound⟩ := LoopHeader.ofElements_eq_ok_iff.mp hheader
      exact Or.inr (Or.inl ⟨header, rfl, helements, hbound, (Except.ok.inj h).symm⟩)
  | close =>
    cases elements with
    | cons e elements => contradiction
    | nil =>
      rw [apply] at h
      split at h
      · contradiction
      · rename_i hclosed
        obtain rfl := Except.ok.inj h
        exact Or.inr (Or.inr ⟨rfl, rfl, hclosed⟩)

end TagHead

namespace Reading

theorem run_elements {tokens : List Token} {elements : List Element}
    (h : tokens.map Token.kind = elements.map .element) (opening : Position) (head : TagHead)
    (done : List Element) (builder : Builder) :
    (inside opening head done builder).run tokens
      = .ok (inside opening head (elements.reverse ++ done) builder) := by
  induction elements generalizing tokens done with
  | nil =>
    obtain rfl := List.map_eq_nil_iff.mp h
    rfl
  | cons e elements ih =>
    obtain ⟨token, tokens, rfl, hkind, htokens⟩ := List.map_eq_cons_iff.mp h
    rw [run, step, hkind]
    dsimp only
    rw [ih htokens, List.reverse_cons, List.append_assoc, List.singleton_append]

theorem run_tag_cons {start : Token} {tokens : List Token} {name : String}
    {elements : List Element} {head : TagHead}
    (h : (start :: tokens).map Token.kind = tagKinds name elements)
    (hname : TagHead.ofName? name = some head) (builder : Builder) :
    (between builder).run (start :: tokens) =
      match head.apply start.start elements builder with
      | .error fault => .error ⟨fault, start.start⟩
      | .ok builder => .ok (between builder) := by
  obtain ⟨hstart, h⟩ := List.cons.inj h
  obtain ⟨first, _, rfl, hfirst, h⟩ := List.map_eq_cons_iff.mp h
  obtain ⟨tokens, _, rfl, htokens, h⟩ := List.map_eq_append_iff.mp h
  obtain ⟨last, _, rfl, hlast, h⟩ := List.map_eq_cons_iff.mp h
  obtain rfl := List.map_eq_nil_iff.mp h
  have hhead : TagHead.ofToken? first.kind = some head :=
    TagHead.ofToken?_eq_some_iff.mpr ⟨name, hfirst, hname⟩
  rw [run, step, hstart]
  dsimp only
  rw [run, step, hhead]
  dsimp only
  rw [run_append, run_elements htokens]
  dsimp only
  rw [run, step, hlast, List.append_nil, List.reverse_reverse]
  cases head.apply start.start elements builder <;> rfl

theorem run_tag {tokens : List Token} {name : String} {elements : List Element} {head : TagHead}
    (h : tokens.map Token.kind = tagKinds name elements)
    (hname : TagHead.ofName? name = some head) :
    ∃ opening, ∀ builder, (between builder).run tokens =
      match head.apply opening elements builder with
      | .error fault => .error ⟨fault, opening⟩
      | .ok builder => .ok (between builder) := by
  obtain ⟨start, tokens, rfl, -⟩ := List.map_eq_cons_iff.mp h
  exact ⟨start.start, run_tag_cons h hname⟩

/-- Nodes that are appended while a loop is open become its children. -/
private theorem foldl_append_openLoop (nodes : List Node) (root : List Node) (frame : OpenLoop)
    (frames : List OpenLoop) :
    nodes.foldl Builder.append ⟨root, frame :: frames⟩
      = ⟨root, { frame with children := nodes.reverse ++ frame.children } :: frames⟩ := by
  induction nodes generalizing frame with
  | nil => rfl
  | cons node nodes ih =>
    rw [List.foldl_cons, List.reverse_cons, List.append_assoc, List.singleton_append]
    exact ih { frame with children := node :: frame.children }

private theorem foldl_append_empty (nodes : List Node) (root : List Node) :
    nodes.foldl Builder.append ⟨root, []⟩ = ⟨nodes.reverse ++ root, []⟩ := by
  induction nodes generalizing root with
  | nil => rfl
  | cons node nodes ih =>
    rw [List.foldl_cons, List.reverse_cons, List.append_assoc, List.singleton_append]
    exact ih (node :: root)

/-- **Completeness.** The machine that is told the tokens of a derivation appends its nodes. -/
theorem run_derivation (t : Derivation) {tokens : List Token}
    (h : tokens.map Token.kind = t.kinds) (builder : Builder) :
    (between builder).run tokens = .ok (between (t.nodes.foldl Builder.append builder)) := by
  induction t generalizing tokens builder with
  | done =>
    obtain rfl := List.map_eq_nil_iff.mp h
    rfl
  | text content rest ih =>
    obtain ⟨token, tokens, rfl, hkind, h⟩ := List.map_eq_cons_iff.mp h
    rw [run, step, hkind]
    exact ih h _
  | echo elements ne_nil rest ih =>
    obtain ⟨tag, tokens, rfl, htag, h⟩ := List.map_eq_append_iff.mp h
    obtain ⟨opening, hrun⟩ := run_tag htag (TagHead.ofName?_eq_echo_iff.mpr rfl)
    rw [run_append, hrun, TagHead.apply_echo ne_nil]
    exact ih h _
  | loop opener spellsFor header isBound body closer spellsEnd rest ihbody ihrest =>
    obtain ⟨tag, _, rfl, htag, h⟩ := List.map_eq_append_iff.mp h
    obtain ⟨inner, _, rfl, hinner, h⟩ := List.map_eq_append_iff.mp h
    obtain ⟨endTag, tokens, rfl, hend, h⟩ := List.map_eq_append_iff.mp h
    obtain ⟨opening, hrun⟩ := run_tag htag (TagHead.ofName?_eq_loop_iff.mpr spellsFor)
    obtain ⟨closing, hclose⟩ := run_tag hend (TagHead.ofName?_eq_close_iff.mpr spellsEnd)
    rw [run_append, hrun, TagHead.apply_loop isBound]
    dsimp only
    rw [run_append, ihbody hinner, Builder.openLoop, foldl_append_openLoop]
    dsimp only
    rw [run_append, hclose, TagHead.apply_close rfl, OpenLoop.toNode, List.append_nil,
      List.reverse_reverse]
    exact ihrest h _

end Reading

/-! ## What is under construction derives from what was told -/

/-- Whether a document under construction is made of derivations: of one for the nodes at the top
level, and for each open loop its tag and one for its children so far. -/
inductive Consumed : List TokenKind → Builder → Prop
  | top (t : Derivation) : Consumed t.kinds ⟨t.nodes.reverse, []⟩
  | inLoop {kinds : List TokenKind} {builder : Builder} {opener : String} {header : LoopHeader}
    (opening : Position) (t : Derivation) : Consumed kinds builder → SpellsFor opener →
    (∀ e ∈ header.bounds, IsBound e) →
    Consumed (kinds ++ (tagKinds opener header.elements ++ t.kinds))
      ⟨builder.root, ⟨header, opening, t.nodes.reverse⟩ :: builder.openLoops⟩

namespace Consumed

variable {kinds : List TokenKind} {builder : Builder}

theorem append (h : Consumed kinds builder) {t : Derivation} {node : Node}
    (ht : t.nodes = [node]) : Consumed (kinds ++ t.kinds) (builder.append node) := by
  cases h with
  | top u =>
    have := Consumed.top (u.append t)
    rwa [Derivation.kinds_append, Derivation.nodes_append, ht, List.reverse_concat] at this
  | inLoop opening u h hspells hbound =>
    have := Consumed.inLoop opening (u.append t) h hspells hbound
    rw [Derivation.kinds_append, Derivation.nodes_append, ht, List.reverse_concat] at this
    rw [List.append_assoc, List.append_assoc]
    exact this

theorem closeLoop (h : Consumed kinds builder) {closed : Builder}
    (hclosed : builder.closeLoop? = some closed) {closer : String} (hcloser : SpellsEnd closer) :
    Consumed (kinds ++ tagKinds closer []) closed := by
  cases h with
  | top u => contradiction
  | @inLoop kinds builder opener header opening u h hspells hbound =>
    -- What was derived in the loop becomes one item of the derivation around it.
    have hnode := h.append (t := .loop opener hspells header hbound u closer hcloser .done) rfl
    obtain rfl := Option.some.inj hclosed
    rw [Derivation.kinds, Derivation.kinds, List.append_nil] at hnode
    rw [List.append_assoc, List.append_assoc, OpenLoop.toNode, List.reverse_reverse]
    exact hnode

theorem apply (h : Consumed kinds builder) {name : String} {head : TagHead}
    (hname : TagHead.ofName? name = some head) {opening : Position} {elements : List Element}
    {after : Builder} (happly : head.apply opening elements builder = .ok after) :
    Consumed (kinds ++ tagKinds name elements) after := by
  rcases TagHead.apply_eq_ok_cases happly with ⟨rfl, hne, rfl⟩ | ⟨header, rfl, rfl, hbound, rfl⟩ |
    ⟨rfl, rfl, hclosed⟩
  · obtain rfl := TagHead.ofName?_eq_echo_iff.mp hname
    have := h.append (t := .echo elements hne .done) rfl
    rwa [Derivation.kinds, Derivation.kinds, List.append_nil] at this
  · have := h.inLoop opening .done (TagHead.ofName?_eq_loop_iff.mp hname) hbound
    rwa [Derivation.kinds, List.append_nil] at this
  · exact h.closeLoop hclosed (TagHead.ofName?_eq_close_iff.mp hname)

end Consumed

/-- Whether the machine can be in a state when it has been told tokens of the given kinds: what is
under construction derives from them but for the tag that is open, of which head and elements are
known. -/
inductive Reading.Told : List TokenKind → Reading → Prop
  | between {kinds : List TokenKind} {builder : Builder} : Consumed kinds builder →
    Told kinds (.between builder)
  | opened {kinds : List TokenKind} {builder : Builder} (opening : Position) :
    Consumed kinds builder → Told (kinds ++ [.tagStart]) (.opened opening builder)
  | inside {kinds : List TokenKind} {builder : Builder} {name : String} {head : TagHead}
    (opening : Position) (done : List Element) : Consumed kinds builder →
    TagHead.ofName? name = some head →
    Told (kinds ++ .tagStart :: .tagHead name :: done.reverse.map .element)
      (.inside opening head done builder)

namespace Reading

/-- One token more keeps the machine in step with what it was told. -/
theorem told_step {kinds : List TokenKind} {reading next : Reading} {token : Token}
    (h : Told kinds reading) (hstep : reading.step token = .ok next) :
    Told (kinds ++ [token.kind]) next := by
  cases h with
  | @between _ builder h =>
    rw [step] at hstep
    split at hstep
    · rename_i content hkind
      obtain rfl := Except.ok.inj hstep
      rw [hkind]
      exact .between (h.append (t := .text content .done) rfl)
    · rename_i hkind
      obtain rfl := Except.ok.inj hstep
      rw [hkind]
      exact .opened _ h
    · contradiction
  | @opened kinds builder opening h =>
    rw [step] at hstep
    cases hhead : TagHead.ofToken? token.kind with
    | none =>
      rw [hhead] at hstep
      contradiction
    | some head =>
      rw [hhead] at hstep
      obtain rfl := Except.ok.inj hstep
      obtain ⟨name, hkind, hname⟩ := TagHead.ofToken?_eq_some_iff.mp hhead
      rw [hkind, List.append_assoc]
      exact .inside opening [] h hname
  | @inside kinds builder name head opening done h hname =>
    rw [step] at hstep
    split at hstep
    · rename_i hkind
      cases happly : head.apply opening done.reverse builder with
      | error fault =>
        rw [happly] at hstep
        contradiction
      | ok after =>
        rw [happly] at hstep
        obtain rfl := Except.ok.inj hstep
        rw [hkind, List.append_assoc]
        exact .between (h.apply hname happly)
    · rename_i e hkind
      obtain rfl := Except.ok.inj hstep
      rw [hkind, List.append_assoc]
      have := Told.inside opening (e :: done) h hname
      rwa [List.reverse_cons, List.map_append] at this
    · contradiction

theorem told_run {kinds : List TokenKind} {reading reached : Reading} {tokens : List Token}
    (h : Told kinds reading) (hrun : reading.run tokens = .ok reached) :
    Told (kinds ++ tokens.map Token.kind) reached := by
  induction tokens generalizing kinds reading with
  | nil =>
    obtain rfl := Except.ok.inj hrun
    rwa [List.map_nil, List.append_nil]
  | cons token tokens ih =>
    rw [run] at hrun
    cases hstep : reading.step token with
    | error e =>
      rw [hstep] at hrun
      contradiction
    | ok next =>
      rw [hstep] at hrun
      have := ih (told_step h hstep) hrun
      rwa [List.append_assoc] at this

/-- **Soundness.** A document that is finished derives from the tokens that were told. -/
theorem exists_derivation_of_run {tokens : List Token} {last : Token} {reached : Reading}
    {doc : Document} (hrun : (between .empty).run tokens = .ok reached)
    (hfinish : reached.finish last = .ok doc) :
    ∃ t : Derivation, tokens.map Token.kind = t.kinds ∧ doc = ⟨t.nodes⟩ := by
  have htold := told_run (.between (.top .done)) hrun
  rw [Derivation.kinds, List.nil_append] at htold
  generalize tokens.map Token.kind = kinds at htold ⊢
  cases htold with
  | between h =>
    cases h with
    | top t =>
      obtain rfl := Except.ok.inj hfinish
      exact ⟨t, rfl, by rw [List.reverse_reverse]⟩
    -- With a loop or a tag open a document cannot be finished.
    | inLoop _ _ _ _ _ => contradiction
  | opened _ _ => contradiction
  | inside _ _ _ _ => contradiction

end Reading

/-! ## Derivations are unique -/

/-- Whether no item of the grammar begins here: there is nothing more, or an END tag comes. -/
inductive StopsItems : List TokenKind → Prop
  | nil : StopsItems []
  | closer {name : String} (more : List TokenKind) : SpellsEnd name →
    StopsItems (.tagStart :: .tagHead name :: more)

private theorem map_element_append_inj {elements elements' : List Element}
    {more more' : List TokenKind}
    (h : elements.map .element ++ .tagEnd :: more = elements'.map .element ++ .tagEnd :: more') :
    elements = elements' ∧ more = more' := by
  induction elements generalizing elements' with
  | nil =>
    cases elements' with
    | nil => exact ⟨rfl, (List.cons.inj h).2⟩
    | cons e' elements' => cases (List.cons.inj h).1
  | cons e elements ih =>
    cases elements' with
    | nil => cases (List.cons.inj h).1
    | cons e' elements' =>
      obtain ⟨he, hrest⟩ := List.cons.inj h
      obtain ⟨rfl, hmore⟩ := ih hrest
      exact ⟨by rw [TokenKind.element.inj he], hmore⟩

theorem tagKinds_append_inj {name name' : String} {elements elements' : List Element}
    {more more' : List TokenKind}
    (h : tagKinds name elements ++ more = tagKinds name' elements' ++ more') :
    name = name' ∧ elements = elements' ∧ more = more' := by
  simp only [tagKinds, List.cons_append, List.append_assoc, List.nil_append] at h
  obtain ⟨hname, helements⟩ := List.cons.inj (List.cons.inj h).2
  exact ⟨TokenKind.tagHead.inj hname, map_element_append_inj helements⟩

theorem not_spellsEnd_of_spellsFor {name : String} (h : SpellsFor name) :
    ¬SpellsEnd name := by
  intro hend
  rw [SpellsEnd, h] at hend
  exact absurd hend (by decide)

theorem not_spellsEnd_equals : ¬SpellsEnd "=" := by
  rw [SpellsEnd]
  decide

theorem not_spellsFor_equals : ¬SpellsFor "=" := by
  rw [SpellsFor]
  decide

namespace Derivation

private theorem eq_done_of_stops {t : Derivation} {more stop : List TokenKind}
    (h : t.kinds ++ more = stop) (hstop : StopsItems stop) : t = done := by
  cases t with
  | done => rfl
  | text content rest => subst h; cases hstop
  | echo elements ne_nil rest =>
    subst h
    cases hstop with
    | closer _ hspells => exact absurd hspells not_spellsEnd_equals
  | loop opener spellsFor header isBound body closer spellsEnd rest =>
    subst h
    cases hstop with
    | closer _ hspells => exact absurd hspells (not_spellsEnd_of_spellsFor spellsFor)

private theorem kinds_append_inj {t u : Derivation} {more more' : List TokenKind}
    (hmore : StopsItems more) (hmore' : StopsItems more')
    (h : t.kinds ++ more = u.kinds ++ more') : t = u ∧ more = more' := by
  induction t generalizing u more more' with
  | done =>
    obtain rfl := eq_done_of_stops h.symm hmore
    exact ⟨rfl, h⟩
  | text content rest ih =>
    cases u with
    | done => cases (eq_done_of_stops h hmore')
    | text content' rest' =>
      obtain ⟨hcontent, h⟩ := List.cons.inj h
      obtain ⟨rfl, rfl⟩ := ih hmore hmore' h
      exact ⟨by rw [TokenKind.text.inj hcontent], rfl⟩
    | echo _ _ _ => cases (List.cons.inj h).1
    | loop _ _ _ _ _ _ _ _ => cases (List.cons.inj h).1
  | echo elements ne_nil rest ih =>
    cases u with
    | done => cases (eq_done_of_stops h hmore')
    | text _ _ => cases (List.cons.inj h).1
    | echo elements' ne_nil' rest' =>
      simp only [kinds, List.append_assoc] at h
      obtain ⟨-, rfl, hrest⟩ := tagKinds_append_inj h
      obtain ⟨rfl, rfl⟩ := ih hmore hmore' hrest
      exact ⟨rfl, rfl⟩
    | loop opener spellsFor _ _ _ _ _ _ =>
      simp only [kinds, List.append_assoc] at h
      obtain ⟨rfl, -, -⟩ := tagKinds_append_inj h
      exact absurd spellsFor not_spellsFor_equals
  | loop opener spellsFor header isBound body closer spellsEnd rest ihbody ihrest =>
    cases u with
    | done => cases (eq_done_of_stops h hmore')
    | text _ _ => cases (List.cons.inj h).1
    | echo _ _ _ =>
      simp only [kinds, List.append_assoc] at h
      obtain ⟨rfl, -, -⟩ := tagKinds_append_inj h
      exact absurd spellsFor not_spellsFor_equals
    | loop opener' _ header' _ body' closer' spellsEnd' rest' =>
      simp only [kinds, List.append_assoc] at h
      obtain ⟨rfl, helements, hbody⟩ := tagKinds_append_inj h
      obtain rfl := LoopHeader.elements_inj helements
      -- Behind each body comes an END tag, so neither body goes on where the other one stops.
      obtain ⟨rfl, hcloser⟩ := ihbody (.closer _ spellsEnd) (.closer _ spellsEnd') hbody
      obtain ⟨rfl, -, hrest⟩ := tagKinds_append_inj hcloser
      obtain ⟨rfl, rfl⟩ := ihrest hmore hmore' hrest
      exact ⟨rfl, rfl⟩

/-- Tokens have at most one derivation. -/
theorem kinds_injective : Function.Injective kinds := fun _ _ h ↦
  (kinds_append_inj .nil .nil (congrArg (· ++ []) h)).1

end Derivation

/-! ## Documents -/

namespace Document

theorem exists_derivation_of_parse {source : String} {doc : Document}
    (h : Document.parse source = .ok doc) : ∃ tokens, tokenize source = .ok tokens ∧
      ∃ t : Derivation, tokens.map Token.kind = t.kinds ++ [.endOfInput] ∧ doc = ⟨t.nodes⟩ := by
  obtain ⟨tokens, last, htokens, reached, hrun, hfinish⟩ := Document.parse_eq_ok_iff_run.mp h
  obtain ⟨t, hkinds, rfl⟩ := Reading.exists_derivation_of_run hrun hfinish
  obtain ⟨_, _, heq, hlast, -⟩ := (tokenize_eq_ok_iff_scans.mp htokens).exists_last
  obtain ⟨rfl, hsingle⟩ := List.append_inj' heq rfl
  obtain rfl := (List.cons.inj hsingle).1
  refine ⟨_, htokens, t, ?_, rfl⟩
  rw [List.map_append, hkinds, List.map_singleton, hlast]

theorem parse_of_derivation {source : String} {tokens : List Token}
    (htokens : tokenize source = .ok tokens) {t : Derivation}
    (hkinds : tokens.map Token.kind = t.kinds ++ [.endOfInput]) :
    Document.parse source = .ok ⟨t.nodes⟩ := by
  rw [Document.parse_eq_ok_iff_run]
  obtain ⟨others, lasts, rfl, hothers, hlasts⟩ := List.map_eq_append_iff.mp hkinds
  obtain ⟨last, _, rfl, hlast, hnil⟩ := List.map_eq_cons_iff.mp hlasts
  obtain rfl := List.map_eq_nil_iff.mp hnil
  refine ⟨others, last, htokens, _, Reading.run_derivation t hothers .empty, ?_⟩
  rw [Reading.finish, Builder.empty, Reading.foldl_append_empty, Builder.toDocument,
    Builder.finish, List.append_nil, List.reverse_reverse]

end Document

/-- **The grammar of documents.** A source is read as a document exactly when it has tokens, and the
document derives from them; and tokens have at most one derivation. -/
theorem parse_eq_ok_iff_exists_derivation :
    (∀ source doc, Document.parse source = .ok doc ↔ ∃ tokens, tokenize source = .ok tokens ∧
      ∃ t : Derivation, tokens.map Token.kind = t.kinds ++ [.endOfInput] ∧ doc = ⟨t.nodes⟩) ∧
    ∀ t u : Derivation, t.kinds ++ [.endOfInput] = u.kinds ++ [.endOfInput] → t = u := by
  refine ⟨fun source doc ↦ ⟨Document.exists_derivation_of_parse, ?_⟩,
    fun t u h ↦ Derivation.kinds_injective (List.append_cancel_right h)⟩
  rintro ⟨tokens, htokens, t, hkinds, rfl⟩
  exact Document.parse_of_derivation htokens hkinds

end TagTemplate
