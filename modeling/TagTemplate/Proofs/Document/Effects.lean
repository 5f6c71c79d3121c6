import TagTemplate.Proofs.Document.Misplaced

/-!
# What one tag does

A document under construction keeps its finished nodes latest first, in open loops and at the top
level. What a tag does to it is better seen from outside: there are containers, the open loops from
the innermost outwards and last the top level, with nodes in them in the order of the template
(`Builder.contents`), and each open loop has a header (`Builder.headers`). The two say all that
there is to a document under construction (`Builder.eq_of_contents_eq`).

A tag that takes effect changes the first container or the second and nothing else (`TakesEffect`),
and one that is refused is refused for the first of several reasons (`IsRefused`). Neither says
anything of streams: both are about the head of the tag, its elements and the containers. What a tag
consists of is known when its tokens are, and reading it finds out which of the two holds
(`readTag_eq_ok_iff`, `readTag_eq_error_iff`).

Wherever reading goes on between tags, it has come there by texts and by tags that have taken
effect. So what each of them keeps holds there, of all the tokens so far and of what has been made
of them (`ReadsFrom.exists_yields`).
-/

namespace TagTemplate

/-! ## The tokens of a tag -/

namespace TokenStream.Yields

variable {stream after rest : TokenStream} {token : Token} {tokens more : List Token}

theorem cons_iff : stream.Yields (token :: tokens) after ↔
    ∃ next, stream.next = (.ok token, next) ∧ next.Yields tokens after := by
  constructor
  · intro h
    cases h with
    | cons hnext h => exact ⟨_, hnext, h⟩
  · rintro ⟨next, hnext, h⟩
    exact .cons hnext h

theorem singleton_iff : stream.Yields [token] after ↔ stream.next = (.ok token, after) := by
  rw [cons_iff]
  constructor
  · rintro ⟨next, hnext, ⟨_⟩⟩
    exact hnext
  · intro hnext
    exact ⟨after, hnext, .nil after⟩

theorem append (h : stream.Yields tokens after) (hmore : after.Yields more rest) :
    stream.Yields (tokens ++ more) rest := by
  induction h with
  | nil => exact hmore
  | cons hnext _ ih => exact .cons hnext (ih hmore)

theorem exists_of_append (h : stream.Yields (tokens ++ more) rest) :
    ∃ after, stream.Yields tokens after ∧ after.Yields more rest := by
  induction tokens generalizing stream with
  | nil => exact ⟨stream, .nil stream, h⟩
  | cons token tokens ih =>
    obtain ⟨next, hnext, htokens⟩ := cons_iff.mp h
    obtain ⟨after, hafter, hmore⟩ := ih htokens
    exact ⟨after, .cons hnext hafter, hmore⟩

theorem exists_elements (h : stream.Yields tokens after) {opening : Position}
    (hcontext : stream.context = .tag opening false) (htokens : ∀ t ∈ tokens, t.kind ≠ .tagEnd) :
    ∃ elements : List Element, tokens.map Token.kind = elements.map .element := by
  induction h with
  | nil => exact ⟨[], rfl⟩
  | @cons stream next after token tokens hnext _ ih =>
    rw [List.forall_mem_cons] at htokens
    obtain ⟨e, hkind⟩ := (kind_of_next_in_body hcontext hnext).resolve_left htokens.1
    obtain ⟨elements, helements⟩ := ih (context_of_element hcontext hnext hkind) htokens.2
    exact ⟨e :: elements, by rw [List.map_cons, List.map_cons, hkind, helements]⟩

end TokenStream.Yields

section Reading

variable {stream after rest : TokenStream} {inner : List Token} {first last : Token}
  {done elements : List Element}

private theorem readElements_of_tagEnd (hnext : stream.next = (.ok last, after))
    (hlast : last.kind = .tagEnd) : readElements stream done = .ok (done.reverse, after) := by
  fun_cases readElements stream done <;> simp_all

private theorem readElements_of_element {e : Element} (hnext : stream.next = (.ok first, after))
    (hkind : first.kind = .element e) :
    readElements stream done = readElements after (e :: done) := by
  fun_cases readElements stream done <;> simp_all

theorem readElements_of_yields (h : stream.Yields (inner ++ [last]) rest)
    (hinner : inner.map Token.kind = elements.map .element) (hlast : last.kind = .tagEnd) :
    readElements stream done = .ok (done.reverse ++ elements, rest) := by
  induction elements generalizing stream inner done with
  | nil =>
    obtain rfl := List.map_eq_nil_iff.mp hinner
    have hnext := TokenStream.Yields.singleton_iff.mp h
    rw [readElements_of_tagEnd hnext hlast, List.append_nil]
  | cons e elements ih =>
    obtain ⟨token, inner, rfl, hkind, hinner⟩ := List.map_eq_cons_iff.mp hinner
    obtain ⟨next, hnext, hrest⟩ := TokenStream.Yields.cons_iff.mp h
    rw [readElements_of_element hnext hkind, ih hrest hinner, List.reverse_cons, List.append_assoc,
      List.singleton_append]

theorem exists_yields_of_readElements (h : readElements stream done = .ok (elements, rest)) :
    ∃ inner last more, stream.Yields (inner ++ [last]) rest ∧
      inner.map Token.kind = more.map .element ∧ last.kind = .tagEnd ∧
      elements = done.reverse ++ more := by
  fun_induction readElements stream done with
  | case1 => contradiction
  | case2 stream done token after hnext hkind =>
    obtain ⟨rfl, rfl⟩ := Prod.mk.inj (Except.ok.inj h)
    exact ⟨[], token, [], .cons hnext (.nil _), rfl, hkind, (List.append_nil _).symm⟩
  | case3 stream done token after hnext e hkind ih =>
    obtain ⟨inner, last, more, hyields, hinner, hlast, rfl⟩ := ih h
    refine ⟨token :: inner, last, e :: more, .cons hnext hyields, ?_, hlast, by simp⟩
    rw [List.map_cons, List.map_cons, hkind, hinner]
  | case4 => contradiction

variable {opening : Position} {builder changed : Builder} {head : TagHead}

theorem readTag_of_unknown (hnext : stream.next = (.ok first, after))
    (hhead : TagHead.ofToken? first.kind = none) :
    readTag opening stream builder = .error ⟨.unknownTag first.kind, first.start⟩ := by
  rw [readTag, hnext]
  dsimp only
  rw [hhead]

theorem readTag_of_yields (hnext : stream.next = (.ok first, after))
    (hhead : TagHead.ofToken? first.kind = some head) (h : after.Yields (inner ++ [last]) rest)
    (hinner : inner.map Token.kind = elements.map .element) (hlast : last.kind = .tagEnd) :
    readTag opening stream builder =
      match head.apply opening elements builder with
      | .error fault => .error ⟨fault, opening⟩
      | .ok changed => .ok (changed, rest) := by
  rw [readTag, hnext]
  dsimp only
  rw [hhead]
  dsimp only
  rw [readElements_of_yields h hinner hlast]
  rfl

/-- A tag that has been read has its tokens and has taken effect. -/
theorem exists_yields_of_readTag (h : readTag opening stream builder = .ok (changed, rest)) :
    ∃ (name : String) (head : TagHead) (elements : List Element) (tokens : List Token),
      stream.Yields tokens rest ∧ .tagStart :: tokens.map Token.kind = tagKinds name elements ∧
      TagHead.ofName? name = some head ∧ head.apply opening elements builder = .ok changed := by
  obtain ⟨first, after, head, elements, hnext, hhead, hread, happly⟩ := exists_apply_of_readTag h
  obtain ⟨name, hkind, hname⟩ := TagHead.ofToken?_eq_some_iff.mp hhead
  obtain ⟨inner, last, more, hyields, hinner, hlast, rfl⟩ := exists_yields_of_readElements hread
  refine ⟨name, head, elements, _, .cons hnext hyields, ?_, hname, happly⟩
  rw [List.map_cons, List.map_append, List.map_singleton, hkind, hinner, hlast]
  rfl

end Reading

/-! ## The tokens so far -/

/-- **Tokens so far.** What holds before the first token, and is kept by every text and by every tag
that takes effect, holds wherever reading goes on between tags, of the tokens so far and of what is
under construction. -/
theorem ReadsFrom.exists_yields {motive : List Token → Builder → Prop} (nil : motive [] .empty)
    (text : ∀ {tokens : List Token} {builder : Builder} {token : Token} {content : String},
      token.kind = .text content → motive tokens builder →
      motive (tokens ++ [token]) (builder.append (.text content)))
    (tag : ∀ {tokens more : List Token} {builder changed : Builder} {start : Token} {name : String}
      {head : TagHead} {elements : List Element},
      (start :: more).map Token.kind = tagKinds name elements →
      TagHead.ofName? name = some head → head.apply start.start elements builder = .ok changed →
      motive tokens builder → motive (tokens ++ start :: more) changed)
    {source : String} {stream : TokenStream} {builder : Builder}
    (h : ReadsFrom source stream builder) :
    ∃ tokens, (TokenStream.ofSource source).Yields tokens stream ∧ motive tokens builder := by
  induction h with
  | start => exact ⟨[], .nil _, nil⟩
  | @text stream after builder token content _ hnext hkind ih =>
    obtain ⟨tokens, hyields, hmotive⟩ := ih
    exact ⟨tokens ++ [token], hyields.append (.cons hnext (.nil after)), text hkind hmotive⟩
  | @tag stream after rest builder changed start _ hnext hstart htag ih =>
    obtain ⟨tokens, hyields, hmotive⟩ := ih
    obtain ⟨name, head, elements, more, hmore, hkinds, hname, happly⟩ :=
      exists_yields_of_readTag htag
    rw [← hstart, ← List.map_cons] at hkinds
    exact ⟨tokens ++ start :: more, hyields.append (.cons hnext hmore),
      tag hkinds hname happly hmotive⟩

/-! ## Documents under construction, seen from outside -/

namespace Builder

/-- The header of each open loop and where it was opened, innermost first. -/
def headers (builder : Builder) : List (LoopHeader × Position) :=
  builder.openLoops.map fun frame ↦ (frame.header, frame.opening)

/-- The nodes in each container, in order: in each open loop, innermost first, and last at the top
level. -/
def contents (builder : Builder) : List (List Node) :=
  builder.openLoops.map (·.children.reverse) ++ [builder.root.reverse]

variable {builder changed : Builder}

private theorem openLoops_inj {frames frames' : List OpenLoop}
    (hheaders : frames'.map (fun frame ↦ (frame.header, frame.opening))
      = frames.map fun frame ↦ (frame.header, frame.opening))
    (hchildren : frames'.map (·.children.reverse) = frames.map (·.children.reverse)) :
    frames' = frames := by
  induction frames generalizing frames' with
  | nil => exact List.map_eq_nil_iff.mp hheaders
  | cons frame frames ih =>
    obtain ⟨⟨header, opening, children⟩, frames', rfl, hframe, hframes⟩ :=
      List.map_eq_cons_iff.mp hheaders
    obtain ⟨rfl, rfl⟩ := Prod.mk.inj hframe
    obtain ⟨hreverse, hrest⟩ := List.cons.inj hchildren
    obtain rfl : children = frame.children := List.reverse_injective hreverse
    rw [ih hframes hrest]

theorem eq_of_contents_eq (hheaders : changed.headers = builder.headers)
    (hcontents : changed.contents = builder.contents) : changed = builder := by
  obtain ⟨root, frames⟩ := builder
  obtain ⟨root', frames'⟩ := changed
  obtain ⟨hchildren, hroot⟩ := List.append_inj' hcontents rfl
  obtain rfl : root' = root := List.reverse_injective (List.cons.inj hroot).1
  exact congrArg (Builder.mk root') (openLoops_inj hheaders hchildren)

@[simp] theorem headers_append (node : Node) : (builder.append node).headers = builder.headers := by
  obtain ⟨root, frames⟩ := builder
  cases frames <;> rfl

theorem contents_append {nodes : List Node} {outer : List (List Node)}
    (h : builder.contents = nodes :: outer) (node : Node) :
    (builder.append node).contents = (nodes ++ [node]) :: outer := by
  obtain ⟨root, frames⟩ := builder
  cases frames with
  | nil =>
    obtain ⟨rfl, rfl⟩ := List.cons.inj h
    simp [append, contents]
  | cons frame frames =>
    obtain ⟨rfl, rfl⟩ := List.cons.inj h
    simp [append, contents]

theorem exists_contents_eq (builder : Builder) :
    ∃ nodes outer, builder.contents = nodes :: outer :=
  List.exists_cons_of_ne_nil (List.concat_ne_nil _ _)

theorem closeLoop?_eq_some_iff : builder.closeLoop? = some changed ↔
    ∃ header place headers body nodes outer, builder.headers = (header, place) :: headers ∧
      builder.contents = body :: nodes :: outer ∧ changed.headers = headers ∧
      changed.contents = (nodes ++ [.loop header body]) :: outer := by
  obtain ⟨root, frames⟩ := builder
  cases frames with
  | nil => simp [closeLoop?, headers]
  | cons frame frames =>
    obtain ⟨nodes, outer, hbelow⟩ := (Builder.mk root frames).exists_contents_eq
    have hall : contents ⟨root, frame :: frames⟩ = frame.children.reverse :: nodes :: outer :=
      congrArg _ hbelow
    have hclosed := contents_append hbelow frame.toNode
    constructor
    · intro h
      obtain rfl := Option.some.inj h
      exact ⟨_, _, _, _, nodes, outer, rfl, hall, headers_append _, hclosed⟩
    · rintro ⟨header, place, headers, body, nodes', outer', hheaders, hcontents, hrest, hchanged⟩
      obtain ⟨hframe, rfl⟩ := List.cons.inj hheaders
      obtain ⟨rfl, rfl⟩ := Prod.mk.inj hframe
      obtain ⟨rfl, hnodes⟩ := List.cons.inj (hall.symm.trans hcontents)
      obtain ⟨rfl, rfl⟩ := List.cons.inj hnodes
      refine congrArg some (eq_of_contents_eq ?_ ?_)
      · rw [headers_append, hrest]
        rfl
      · rw [hclosed, hchanged]
        rfl

theorem closeLoop?_eq_none_iff : builder.closeLoop? = none ↔ builder.headers = [] := by
  obtain ⟨root, frames⟩ := builder
  cases frames <;> simp [closeLoop?, headers]

theorem headers_eq_nil_iff : builder.headers = [] ↔ builder.openLoops = [] := List.map_eq_nil_iff

end Builder

/-! ## Headers that are refused -/

namespace LoopHeader

theorem exists_of_length {counter : String} {others : List Element}
    (h : (Element.variableName counter :: others).length = 3 ∨
      (Element.variableName counter :: others).length = 4) :
    ∃ header : LoopHeader, counter = header.counter ∧ others = header.bounds := by
  rcases h with h | h
  · obtain ⟨start, stop, rfl⟩ := List.length_eq_two.mp (Nat.succ.inj h)
    exact ⟨⟨counter, start, stop, none⟩, rfl, rfl⟩
  · obtain ⟨start, stop, step, rfl⟩ := List.length_eq_three.mp (Nat.succ.inj h)
    exact ⟨⟨counter, start, stop, some step⟩, rfl, rfl⟩

/-- Why elements make no header: their number is wrong, or else the first is no variable, or else
one of the others is the first that is no bound. -/
inductive IsRefused : List Element → HeaderFault → Prop
  | wrongCount {elements : List Element} : elements.length ≠ 3 → elements.length ≠ 4 →
    IsRefused elements (.wrongCount elements.length)
  | counterIsNoVariable {counter : Element} {bounds : List Element} :
    bounds.length = 2 ∨ bounds.length = 3 → (∀ name, counter ≠ .variableName name) →
    IsRefused (counter :: bounds) (.counterIsNoVariable counter)
  | noBound {name : String} {before behind : List Element} {e : Element} :
    (before ++ e :: behind).length = 2 ∨ (before ++ e :: behind).length = 3 →
    (∀ b ∈ before, IsBound b) → ¬IsBound e →
    IsRefused (.variableName name :: (before ++ e :: behind)) (.noBound e)

variable {elements bounds : List Element} {counter : Element} {fault : HeaderFault}

private theorem isRefused_variableName_iff {name : String}
    (hlength : bounds.length = 2 ∨ bounds.length = 3) :
    IsRefused (.variableName name :: bounds) fault ↔
      ∃ e, bounds.find? (!·.isLoopBound) = some e ∧ .noBound e = fault := by
  have hfind (e : Element) : bounds.find? (!·.isLoopBound) = some e ↔
      ¬IsBound e ∧ ∃ before behind, bounds = before ++ e :: behind ∧ ∀ b ∈ before, IsBound b := by
    simp [List.find?_eq_some_iff_append, isBound_iff]
  constructor
  · intro h
    cases h with
    | wrongCount h3 h4 =>
      rw [List.length_cons] at h3 h4
      omega
    | counterIsNoVariable _ hne => exact absurd rfl (hne name)
    | @noBound _ before behind e _ hbefore he =>
      exact ⟨e, (hfind e).mpr ⟨he, before, behind, rfl, hbefore⟩, rfl⟩
  · rintro ⟨e, he, rfl⟩
    obtain ⟨hbad, before, behind, rfl, hbefore⟩ := (hfind e).mp he
    exact .noBound hlength hbefore hbad

private theorem isRefused_iff_of_ne_variableName
    (hlength : bounds.length = 2 ∨ bounds.length = 3) (hne : ∀ name, counter ≠ .variableName name) :
    IsRefused (counter :: bounds) fault ↔ .counterIsNoVariable counter = fault := by
  constructor
  · intro h
    cases h with
    | wrongCount h3 h4 =>
      rw [List.length_cons] at h3 h4
      omega
    | counterIsNoVariable _ _ => rfl
    | noBound _ _ _ => exact absurd rfl (hne _)
  · rintro rfl
    exact .counterIsNoVariable hlength hne

private theorem checked_eq_error_iff {start stop : Element} {step : Option Element} :
    checked counter start stop step = .error fault ↔
      IsRefused (counter :: start :: stop :: step.toList) fault := by
  have hlength : (start :: stop :: step.toList).length = 2 ∨
      (start :: stop :: step.toList).length = 3 := by
    cases step <;> simp
  unfold checked
  split
  · rename_i name
    rw [isRefused_variableName_iff hlength]
    dsimp only [LoopHeader.bounds]
    split <;> simp [*]
  · rename_i hne
    rw [isRefused_iff_of_ne_variableName hlength hne, Except.error.injEq]

private theorem isRefused_iff_of_length (h3 : elements.length ≠ 3) (h4 : elements.length ≠ 4) :
    IsRefused elements fault ↔ .wrongCount elements.length = fault := by
  constructor
  · intro h
    cases h with
    | wrongCount _ _ => rfl
    | counterIsNoVariable hlength _ =>
      rw [List.length_cons] at h3 h4
      omega
    | noBound hlength _ _ =>
      rw [List.length_cons] at h3 h4
      omega
  · rintro rfl
    exact .wrongCount h3 h4

theorem ofElements_eq_error_iff :
    ofElements elements = .error fault ↔ IsRefused elements fault := by
  unfold ofElements
  split
  · exact checked_eq_error_iff
  · exact checked_eq_error_iff
  · rename_i hthree hfour
    have h3 : elements.length ≠ 3 := fun hlength ↦ by
      obtain ⟨a, b, c, rfl⟩ := List.length_eq_three.mp hlength
      exact hthree a b c rfl
    have h4 : elements.length ≠ 4 := fun hlength ↦ by
      obtain ⟨a, b, c, d, rfl⟩ := List.length_eq_four.mp hlength
      exact hfour a b c d rfl
    rw [isRefused_iff_of_length h3 h4, Except.error.injEq]

end LoopHeader

/-! ## Effects -/

/-- Whether a token that begins a tag is no head of one. -/
def TokenKind.IsNoHead (kind : TokenKind) : Prop :=
  kind ≠ .tagHead "=" ∧ ∀ name, kind = .tagHead name → ¬SpellsFor name ∧ ¬SpellsEnd name

theorem TagHead.ofToken?_eq_none_iff {kind : TokenKind} : ofToken? kind = none ↔ kind.IsNoHead := by
  have hsome (name : String) : ofName? name = none ↔
      name ≠ "=" ∧ ¬SpellsFor name ∧ ¬SpellsEnd name := by
    rw [Ne, ← ofName?_eq_echo_iff, ← ofName?_eq_loop_iff, ← ofName?_eq_close_iff]
    rcases ofName? name with - | - | - | - <;> simp
  cases kind with
  | tagHead name =>
    rw [ofToken?, hsome]
    simp [TokenKind.IsNoHead]
  | _ => simp [ofToken?, TokenKind.IsNoHead]

/-- Whether a tag that was opened at a place, with a head and elements, changes a document under
construction to another. -/
inductive TakesEffect (opening : Position) : TokenKind → List Element → Builder → Builder → Prop
  /-- An echo tag puts its elements at the end of the first container. -/
  | echo {elements : List Element} {builder changed : Builder} {nodes : List Node}
    {outer : List (List Node)} : elements ≠ [] → builder.contents = nodes :: outer →
    changed.contents = (nodes ++ [.echo elements]) :: outer → changed.headers = builder.headers →
    TakesEffect opening (.tagHead "=") elements builder changed
  /-- A FOR tag opens a loop with nothing in it. -/
  | loop {name : String} {header : LoopHeader} {builder changed : Builder} : SpellsFor name →
    (∀ e ∈ header.bounds, IsBound e) → changed.contents = [] :: builder.contents →
    changed.headers = (header, opening) :: builder.headers →
    TakesEffect opening (.tagHead name) header.elements builder changed
  /-- An END tag closes the first container and puts the loop at the end of the second. -/
  | close {name : String} {header : LoopHeader} {place : Position}
    {headers : List (LoopHeader × Position)} {body nodes : List Node} {outer : List (List Node)}
    {builder changed : Builder} : SpellsEnd name → builder.headers = (header, place) :: headers →
    builder.contents = body :: nodes :: outer → changed.headers = headers →
    changed.contents = (nodes ++ [.loop header body]) :: outer →
    TakesEffect opening (.tagHead name) [] builder changed

/-- Whether a tag with a head and elements is refused, and why. -/
inductive IsRefused (builder : Builder) : TokenKind → List Element → ParseFault → Prop
  | unknownTag {kind : TokenKind} (elements : List Element) : kind.IsNoHead →
    IsRefused builder kind elements (.unknownTag kind)
  | emptyEcho : IsRefused builder (.tagHead "=") [] .emptyEcho
  | invalidHeader {name : String} {elements : List Element} {fault : HeaderFault} :
    SpellsFor name → LoopHeader.IsRefused elements fault →
    IsRefused builder (.tagHead name) elements (.invalidHeader fault)
  | elementAfterEnd {name : String} (e : Element) (elements : List Element) : SpellsEnd name →
    IsRefused builder (.tagHead name) (e :: elements) (.elementAfterEnd e)
  | unexpectedEnd {name : String} : SpellsEnd name → builder.headers = [] →
    IsRefused builder (.tagHead name) [] .unexpectedEnd

theorem TakesEffect.not_isNoHead {opening : Position} {kind : TokenKind} {elements : List Element}
    {builder changed : Builder} (h : TakesEffect opening kind elements builder changed) :
    ¬kind.IsNoHead := by
  rintro ⟨hecho, hname⟩
  cases h with
  | echo _ _ _ _ => exact hecho rfl
  | loop hspells _ _ _ => exact (hname _ rfl).1 hspells
  | close hspells _ _ _ _ => exact (hname _ rfl).2 hspells

theorem IsRefused.iff_of_isNoHead {builder : Builder} {kind : TokenKind} {elements : List Element}
    {fault : ParseFault} (h : kind.IsNoHead) :
    IsRefused builder kind elements fault ↔ .unknownTag kind = fault := by
  obtain ⟨hecho, hname⟩ := id h
  constructor
  · intro hrefused
    cases hrefused with
    | unknownTag _ _ => rfl
    | emptyEcho => exact absurd rfl hecho
    | invalidHeader hspells _ => exact absurd hspells (hname _ rfl).1
    | elementAfterEnd _ _ hspells => exact absurd hspells (hname _ rfl).2
    | unexpectedEnd hspells _ => exact absurd hspells (hname _ rfl).2
  · rintro rfl
    exact .unknownTag elements h

namespace TagHead

variable {head : TagHead} {name : String} {opening : Position} {elements : List Element}
  {builder changed : Builder} {fault : ParseFault}

theorem apply_eq_ok_iff (hname : ofName? name = some head) :
    head.apply opening elements builder = .ok changed ↔
      TakesEffect opening (.tagHead name) elements builder changed := by
  obtain ⟨nodes, outer, hcontents⟩ := builder.exists_contents_eq
  constructor
  · intro h
    rcases apply_eq_ok_cases h with ⟨rfl, hne, rfl⟩ | ⟨header, rfl, rfl, hbound, rfl⟩ |
      ⟨rfl, rfl, hclosed⟩
    · obtain rfl := ofName?_eq_echo_iff.mp hname
      exact .echo hne hcontents (Builder.contents_append hcontents _) (Builder.headers_append _)
    · exact .loop (ofName?_eq_loop_iff.mp hname) hbound rfl rfl
    · obtain ⟨header, place, headers, body, nodes, outer, hheaders, hbefore, hrest, hafter⟩ :=
        Builder.closeLoop?_eq_some_iff.mp hclosed
      exact .close (ofName?_eq_close_iff.mp hname) hheaders hbefore hrest hafter
  · intro h
    cases h with
    | @echo _ _ _ nodes outer hne hbefore hafter hheaders =>
      obtain rfl := Option.mem_unique hname (ofName?_eq_echo_iff.mpr rfl)
      rw [apply_echo hne]
      refine congrArg Except.ok (Builder.eq_of_contents_eq ?_ ?_)
      · rw [hheaders, Builder.headers_append]
      · rw [hafter, Builder.contents_append hbefore]
    | loop hspells hbound hafter hheaders =>
      obtain rfl := Option.mem_unique hname (ofName?_eq_loop_iff.mpr hspells)
      rw [apply_loop hbound]
      exact congrArg Except.ok (Builder.eq_of_contents_eq hheaders.symm hafter.symm)
    | close hspells hheaders hbefore hrest hafter =>
      obtain rfl := Option.mem_unique hname (ofName?_eq_close_iff.mpr hspells)
      exact apply_close (Builder.closeLoop?_eq_some_iff.mpr
        ⟨_, _, _, _, _, _, hheaders, hbefore, hrest, hafter⟩)

theorem apply_eq_error_iff_isRefused (hname : ofName? name = some head) :
    head.apply opening elements builder = .error fault ↔
      IsRefused builder (.tagHead name) elements fault := by
  rw [apply_eq_error_iff, ← Builder.headers_eq_nil_iff]
  constructor
  · rintro (⟨rfl, rfl, rfl⟩ | ⟨rfl, f, hf, rfl⟩ | ⟨rfl, e, es, rfl, rfl⟩ | ⟨rfl, rfl, hnil, rfl⟩)
    · obtain rfl := ofName?_eq_echo_iff.mp hname
      exact .emptyEcho
    · exact .invalidHeader (ofName?_eq_loop_iff.mp hname) (LoopHeader.ofElements_eq_error_iff.mp hf)
    · exact .elementAfterEnd e es (ofName?_eq_close_iff.mp hname)
    · exact .unexpectedEnd (ofName?_eq_close_iff.mp hname) hnil
  · intro h
    cases h with
    | unknownTag _ hnohead =>
      have hnone := ofToken?_eq_none_iff.mpr hnohead
      exact nomatch hname.symm.trans hnone
    | emptyEcho =>
      obtain rfl := Option.mem_unique hname (ofName?_eq_echo_iff.mpr rfl)
      exact Or.inl ⟨rfl, rfl, rfl⟩
    | invalidHeader hspells hrefused =>
      obtain rfl := Option.mem_unique hname (ofName?_eq_loop_iff.mpr hspells)
      exact Or.inr (Or.inl ⟨rfl, _, LoopHeader.ofElements_eq_error_iff.mpr hrefused, rfl⟩)
    | elementAfterEnd e es hspells =>
      obtain rfl := Option.mem_unique hname (ofName?_eq_close_iff.mpr hspells)
      exact Or.inr (Or.inr (Or.inl ⟨rfl, e, es, rfl, rfl⟩))
    | unexpectedEnd hspells hnil =>
      obtain rfl := Option.mem_unique hname (ofName?_eq_close_iff.mpr hspells)
      exact Or.inr (Or.inr (Or.inr ⟨rfl, rfl, hnil, rfl⟩))

end TagHead

/-- Which tags take effect: an echo tag with elements, a FOR tag with a variable and two or three
bounds, and an END tag without elements where a loop is open. -/
theorem exists_takesEffect_iff {kind : TokenKind} {elements : List Element} {builder : Builder}
    (opening : Position) : (∃ changed, TakesEffect opening kind elements builder changed) ↔
      kind = .tagHead "=" ∧ elements ≠ [] ∨
      (∃ name, kind = .tagHead name ∧ SpellsFor name) ∧
        (elements.length = 3 ∨ elements.length = 4) ∧
        (∃ counter bounds, elements = .variableName counter :: bounds ∧ ∀ e ∈ bounds, IsBound e) ∨
      (∃ name, kind = .tagHead name ∧ SpellsEnd name) ∧ elements = [] ∧ builder.headers ≠ [] := by
  constructor
  · rintro ⟨changed, h⟩
    cases h with
    | echo hne _ _ _ => exact Or.inl ⟨rfl, hne⟩
    | @loop name header _ _ hspells hbound _ _ =>
      refine Or.inr (Or.inl ⟨⟨name, rfl, hspells⟩, ?_, header.counter, header.bounds, rfl, hbound⟩)
      obtain ⟨counter, start, stop, step⟩ := header
      cases step with
      | none => exact Or.inl rfl
      | some step => exact Or.inr rfl
    | close hspells hheaders _ _ _ =>
      refine Or.inr (Or.inr ⟨⟨_, rfl, hspells⟩, rfl, ?_⟩)
      rw [hheaders]
      exact List.cons_ne_nil _ _
  · rintro (⟨rfl, hne⟩ | ⟨⟨name, rfl, hspells⟩, hlength, counter, bounds, rfl, hbound⟩ |
      ⟨⟨name, rfl, hspells⟩, rfl, hopen⟩)
    · exact ⟨_, (TagHead.apply_eq_ok_iff (TagHead.ofName?_eq_echo_iff.mpr rfl)).mp
        (TagHead.apply_echo hne)⟩
    · obtain ⟨header, rfl, rfl⟩ := LoopHeader.exists_of_length hlength
      exact ⟨_, (TagHead.apply_eq_ok_iff (TagHead.ofName?_eq_loop_iff.mpr hspells)).mp
        (TagHead.apply_loop hbound)⟩
    · obtain ⟨closed, hclosed⟩ := Option.ne_none_iff_exists'.mp
        (Builder.closeLoop?_eq_none_iff.not.mpr hopen)
      exact ⟨closed, (TagHead.apply_eq_ok_iff (TagHead.ofName?_eq_close_iff.mpr hspells)).mp
        (TagHead.apply_close hclosed)⟩

/-! ## Reading a tag -/

theorem context_of_first {stream after : TokenStream} {first : Token} {opening : Position}
    (hcontext : stream.context = .tag opening true) (hnext : stream.next = (.ok first, after))
    (hfirst : first.kind ≠ .tagEnd) : after.context = .tag opening false := by
  have hmode : stream.context = Mode.head.context opening := hcontext
  obtain ⟨written, hadmits, -, -⟩ := TokenStream.exists_isPiece_of_next hmode hnext
  rw [TokenStream.context_of_next hnext, Context.after, hcontext]
  rcases (hadmits.of_head).resolve_left hfirst with ⟨e, hkind, -⟩ | ⟨name, hkind⟩
  · rw [hkind]
    rfl
  · rw [hkind]
    rfl

section CompleteTag

variable {stream after rest stop : TokenStream} {builder changed : Builder} {opening p : Position}
  {first last : Token} {inner : List Token} {elements : List Element} {fault : ParseFault}

theorem readTag_eq_ok_iff (hnext : stream.next = (.ok first, after))
    (hyields : after.Yields (inner ++ [last]) rest)
    (hinner : inner.map Token.kind = elements.map .element) (hlast : last.kind = .tagEnd) :
    readTag opening stream builder = .ok (changed, stop) ↔
      stop = rest ∧ TakesEffect opening first.kind elements builder changed := by
  cases hhead : TagHead.ofToken? first.kind with
  | none =>
    rw [readTag_of_unknown hnext hhead]
    exact iff_of_false nofun fun h ↦ h.2.not_isNoHead (TagHead.ofToken?_eq_none_iff.mp hhead)
  | some head =>
    obtain ⟨name, hkind, hname⟩ := TagHead.ofToken?_eq_some_iff.mp hhead
    rw [readTag_of_yields hnext hhead hyields hinner hlast, hkind, ← TagHead.apply_eq_ok_iff hname]
    cases head.apply opening elements builder with
    | error fault => simp
    | ok changed' => simp [eq_comm, and_comm]

theorem readTag_eq_error_iff (hnext : stream.next = (.ok first, after))
    (hyields : after.Yields (inner ++ [last]) rest)
    (hinner : inner.map Token.kind = elements.map .element) (hlast : last.kind = .tagEnd) :
    readTag opening stream builder = .error ⟨fault, p⟩ ↔
      IsRefused builder first.kind elements fault ∧
        (first.kind.IsNoHead ∧ p = first.start ∨ ¬first.kind.IsNoHead ∧ p = opening) := by
  cases hhead : TagHead.ofToken? first.kind with
  | none =>
    have hnohead := TagHead.ofToken?_eq_none_iff.mp hhead
    rw [readTag_of_unknown hnext hhead, IsRefused.iff_of_isNoHead hnohead]
    simp [hnohead, eq_comm]
  | some head =>
    obtain ⟨name, hkind, hname⟩ := TagHead.ofToken?_eq_some_iff.mp hhead
    have hishead : ¬first.kind.IsNoHead := by
      rw [← TagHead.ofToken?_eq_none_iff, hhead]
      exact nofun
    rw [readTag_of_yields hnext hhead hyields hinner hlast]
    rw [hkind] at hishead ⊢
    rw [← TagHead.apply_eq_error_iff_isRefused hname]
    cases head.apply opening elements builder with
    | error fault => simp [hishead, eq_comm]
    | ok changed => simp

end CompleteTag

/-- **Tags.** Behind what opens a tag comes the tag, and that is where it is read. If its first
token is no head it is refused for that, whatever comes behind. If it has tokens up to its end there
are elements in it, and whatever is under construction, it is changed as the head and the elements
say, or the tag is refused for the first reason that there is: one or the other holds. -/
theorem tag_takes_effect_or_is_refused :
    (∀ (stream after : TokenStream) start, stream.next = (.ok start, after) →
      start.kind = .tagStart → after.context = .tag start.start true) ∧
    (∀ opening stream after builder first, stream.next = (.ok first, after) →
      first.kind.IsNoHead →
      readTag opening stream builder = .error ⟨.unknownTag first.kind, first.start⟩) ∧
    ∀ opening place stream after rest builder first inner last,
      stream.context = .tag place true → stream.next = (.ok first, after) →
      first.kind ≠ .tagEnd → after.Yields (inner ++ [last]) rest →
      (∀ t ∈ inner, t.kind ≠ .tagEnd) → last.kind = .tagEnd →
      ∃ elements : List Element, inner.map Token.kind = elements.map .element ∧
        (∀ changed stop, readTag opening stream builder = .ok (changed, stop) ↔
          stop = rest ∧ TakesEffect opening first.kind elements builder changed) ∧
        (∀ fault p, readTag opening stream builder = .error ⟨fault, p⟩ ↔
          IsRefused builder first.kind elements fault ∧
            (first.kind.IsNoHead ∧ p = first.start ∨ ¬first.kind.IsNoHead ∧ p = opening)) ∧
        ((∃ changed, readTag opening stream builder = .ok (changed, rest)) ↔
          first.kind = .tagHead "=" ∧ elements ≠ [] ∨
          (∃ name, first.kind = .tagHead name ∧ SpellsFor name) ∧
            (elements.length = 3 ∨ elements.length = 4) ∧
            (∃ counter bounds, elements = .variableName counter :: bounds ∧
              ∀ e ∈ bounds, IsBound e) ∨
          (∃ name, first.kind = .tagHead name ∧ SpellsEnd name) ∧ elements = [] ∧
            builder.headers ≠ []) := by
  refine ⟨fun stream after start hnext hstart ↦ ?_,
    fun opening stream after builder first hnext hnohead ↦ ?_, ?_⟩
  · rw [TokenStream.context_of_next hnext, Context.after, hstart]
  · exact readTag_of_unknown hnext (TagHead.ofToken?_eq_none_iff.mpr hnohead)
  intro opening place stream after rest builder first inner last hcontext hnext hfirst hyields
    hinner hlast
  have hbody := context_of_first hcontext hnext hfirst
  obtain ⟨before, hbefore, -⟩ := hyields.exists_of_append
  obtain ⟨elements, helements⟩ := hbefore.exists_elements hbody hinner
  refine ⟨elements, helements, fun changed stop ↦ readTag_eq_ok_iff hnext hyields helements hlast,
    fun fault p ↦ readTag_eq_error_iff hnext hyields helements hlast, ?_⟩
  refine (exists_congr fun changed ↦ ?_).trans (exists_takesEffect_iff opening)
  exact (readTag_eq_ok_iff hnext hyields helements hlast).trans (and_iff_right rfl)

/-- A loop in a loop, with a text before, in and between them. -/
def twoOpenLoops : Builder where
  root := [.text "a"]
  openLoops :=
    [⟨⟨"j", .integer 3, .integer 4, none⟩, ⟨20, 1, 21⟩, [.text "c"]⟩,
      ⟨⟨"i", .integer 1, .integer 2, none⟩, ⟨1, 1, 2⟩, [.text "b"]⟩]

/-- An END tag closes the inner of two loops and puts it into the outer one, and a tag that is
unknown is refused at its head. -/
theorem tag_takes_effect_in_twoOpenLoops :
    (∃ start after changed rest, (TokenStream.ofSource "\x7b$End$\x7d").next = (.ok start, after) ∧
      after.context = .tag start.start true ∧
      readTag start.start after twoOpenLoops = .ok (changed, rest) ∧
      changed.contents = [[.text "b", .loop ⟨"j", .integer 3, .integer 4, none⟩ [.text "c"]],
        [.text "a"]] ∧
      changed.headers = [(⟨"i", .integer 1, .integer 2, none⟩, ⟨1, 1, 2⟩)]) ∧
    readTag .origin ⟨⟨"while".toList, ⟨2, 1, 3⟩⟩, .tag .origin true⟩ twoOpenLoops
      = .error ⟨.unknownTag (.tagHead "while"), ⟨2, 1, 3⟩⟩ := by
  have hstart : (TokenStream.ofSource "\x7b$End$\x7d").next
      = (.ok ⟨.tagStart, .origin, ⟨2, 1, 3⟩⟩,
        ⟨⟨"End$\x7d".toList, ⟨2, 1, 3⟩⟩, .tag .origin true⟩) := by decide +kernel
  have hhead : (TokenStream.mk ⟨"End$\x7d".toList, ⟨2, 1, 3⟩⟩ (.tag .origin true)).next
      = (.ok ⟨.tagHead "End", ⟨2, 1, 3⟩, ⟨5, 1, 6⟩⟩,
        ⟨⟨"$\x7d".toList, ⟨5, 1, 6⟩⟩, .tag .origin false⟩) := by decide +kernel
  have hend : (TokenStream.mk ⟨"$\x7d".toList, ⟨5, 1, 6⟩⟩ (.tag .origin false)).next
      = (.ok ⟨.tagEnd, ⟨5, 1, 6⟩, ⟨7, 1, 8⟩⟩, ⟨⟨[], ⟨7, 1, 8⟩⟩, .text⟩) := by decide +kernel
  have hother : (TokenStream.mk ⟨"while".toList, ⟨2, 1, 3⟩⟩ (.tag .origin true)).next
      = (.ok ⟨.tagHead "while", ⟨2, 1, 3⟩, ⟨7, 1, 8⟩⟩,
        ⟨⟨[], ⟨7, 1, 8⟩⟩, .tag .origin false⟩) := by decide +kernel
  obtain ⟨hopens, hunknown, hcomplete⟩ := tag_takes_effect_or_is_refused
  refine ⟨?_, hunknown .origin _ _ twoOpenLoops _ hother (TagHead.ofToken?_eq_none_iff.mp rfl)⟩
  have hcontext := hopens _ _ _ hstart rfl
  obtain ⟨elements, helements, heffect, -, hsucceeds⟩ := hcomplete .origin _ _ _ _
    twoOpenLoops _ [] _ hcontext hhead nofun (.cons hend (.nil _)) (List.forall_mem_nil _) rfl
  obtain rfl : elements = [] := List.map_eq_nil_iff.mp helements.symm
  obtain ⟨changed, hread⟩ := hsucceeds.mpr (Or.inr (Or.inr ⟨⟨"End", rfl, rfl⟩, rfl, nofun⟩))
  refine ⟨_, _, changed, _, hstart, hcontext, hread, ?_⟩
  obtain ⟨-, htakes⟩ := (heffect _ _).mp hread
  generalize TokenKind.tagHead "End" = kind at htakes
  generalize helements : ([] : List Element) = elements at htakes
  cases htakes with
  | echo hne _ _ _ => exact absurd helements.symm hne
  | loop _ _ _ _ => cases helements
  | close _ hheaders hcontents hheaders' hcontents' =>
    obtain ⟨hheader, rfl⟩ := List.cons.inj hheaders
    obtain ⟨rfl, -⟩ := Prod.mk.inj hheader
    obtain ⟨rfl, houter⟩ := List.cons.inj hcontents
    obtain ⟨rfl, rfl⟩ := List.cons.inj houter
    exact ⟨hcontents', hheaders'⟩

end TagTemplate
