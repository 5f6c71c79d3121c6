import TagTemplate.Proofs.Document.Balance
import TagTemplate.Proofs.Document.Concatenation
import TagTemplate.Proofs.Document.Effects
import TagTemplate.Proofs.Token.Places

/-!
# The leftmost error is reported

When a tag is wrong, everything before it is right: cut off before the tag, and with every loop
closed that is open there, the source is read as a document. So what is reported is the leftmost
error that there is, and it is reported at the tag.

The source is cut where a tag opens, and that disturbs no token before. What a token has to be
followed by it is still followed by, or else by the end, since nothing that is written before the
cut is continued by an open brace (`IsPiece.cut`). So the tokens before the cut are those that the
calls for the whole source have answered, and then comes the end
(`TokenStream.Yields.scans_before`).

What has been made of these tokens when the error is found is known in two ways. The loops that are
open are as many as the depth of the tags (`Builder.IsBehind`). And it is made of derivations, which
as many END tags as there are open loops complete to one (`Consumed.exists_derivation`).
-/

namespace TagTemplate

/-! ## Sources that are cut off before a tag -/

namespace Escaping

theorem ne_nil_of_opensTag {cs : List Char} (h : opensTag cs = true) : cs ≠ [] := by
  rintro rfl
  contradiction

/-- What opens a tag before the cut does not need what comes behind. -/
theorem opensTag_of_append {cs rest : List Char} (h : opensTag (cs ++ rest) = true)
    (hrest : opensTag rest = true) (hne : cs ≠ []) : opensTag cs = true := by
  obtain ⟨c, cs, rfl⟩ := List.exists_cons_of_ne_nil hne
  obtain ⟨rfl, hhead⟩ := opensTag_cons_iff.mp h
  cases cs with
  | nil =>
    -- A brace right before the cut is followed by another one.
    obtain ⟨d, rest, rfl⟩ := List.exists_cons_of_ne_nil (ne_nil_of_opensTag hrest)
    obtain ⟨rfl, -⟩ := opensTag_cons_iff.mp hrest
    contradiction
  | cons d cs => exact opensTag_cons_iff.mpr ⟨rfl, hhead⟩

end Escaping

theorem IsPiece.cut {size : List Char → ℕ} {mode : Mode} {kind : TokenKind}
    {written behind rest : List Char} (h : IsPiece size mode kind written (behind ++ rest))
    (hkind : kind ≠ .endOfInput) (hrest : Escaping.opensTag rest = true) :
    IsPiece size mode kind written behind := by
  refine ⟨h.admits, h.spelled, ?_⟩
  have hends := h.ends
  have hhead : ∀ c ∈ behind.head?, c ∈ (behind ++ rest).head? := fun c hc ↦ by
    rw [Option.mem_def] at hc ⊢
    rw [List.head?_append, hc, Option.some_or]
  have hlongest (hall : Numeral.Longest written (behind ++ rest)) :
      Numeral.Longest written behind :=
    fun more hne hmore ↦ hall more hne (hmore.trans (List.prefix_append _ _))
  cases kind with
  | endOfInput => exact absurd rfl hkind
  | text content =>
    obtain ⟨hopens, hunclosed⟩ := hends
    have hopens := hopens.resolve_left
      (List.append_ne_nil_of_right_ne_nil _ (Escaping.ne_nil_of_opensTag hrest))
    refine ⟨or_iff_not_imp_left.mpr (Escaping.opensTag_of_append hopens hrest), ?_⟩
    intro before inside heq hne hbefore
    refine Bool.eq_false_iff.mpr fun hcloses ↦ ?_
    have hclosed := hunclosed before inside heq hne hbefore
    rw [← List.append_assoc] at hclosed
    exact absurd (Escaping.opensTag_append_right hcloses rest) (Bool.eq_false_iff.mp hclosed)
  | tagStart => exact trivial
  | tagEnd => exact trivial
  | tagHead name => exact hends.imp_right fun h c hc ↦ h c (hhead c hc)
  | element e =>
    cases e with
    | integer _ => exact hlongest hends
    | double _ => exact hlongest hends
    | string _ => exact trivial
    | variableName _ => exact fun c hc ↦ hends c (hhead c hc)
    | functionName _ => exact fun c hc ↦ hends c (hhead c hc)
    | operator _ => exact fun hsub c hc ↦ hends hsub c (hhead c hc)

/-- The tokens that calls answer up to where a tag opens are those of what the calls pass over. -/
theorem TokenStream.Yields.scans_before {stream after : TokenStream} {tokens : List Token}
    (h : stream.Yields tokens after) {mode : Mode} {opening : Position}
    (hcontext : stream.context = mode.context opening)
    (htokens : ∀ token ∈ tokens, token.kind ≠ .endOfInput) (hafter : after.context = .text)
    (hopens : Escaping.opensTag after.cursor.rest = true) :
    ∃ before, stream.cursor.rest = before ++ after.cursor.rest ∧
      after.cursor.position = stream.cursor.position.after before ∧
      Scans Exponent.size stream.cursor.position mode before
        (tokens ++ [⟨.endOfInput, after.cursor.position, after.cursor.position⟩]) := by
  induction h generalizing mode opening with
  | nil stream =>
    have hmode : mode.context opening = Mode.text.context opening := hcontext.symm.trans hafter
    obtain rfl := Mode.eq_of_context_eq hmode
    exact ⟨[], rfl, rfl, .endOfInput _⟩
  | @cons stream next after token tokens hnext _ ih =>
    rw [List.forall_mem_cons] at htokens
    obtain ⟨⟨cs, p⟩, context⟩ := stream
    obtain rfl : context = mode.context opening := hcontext
    obtain ⟨gap, written, rest, rfl, hgap, hpiece, htoken, rfl⟩ :=
      (next_eq_ok_iff opening).mp hnext
    obtain ⟨opening', hnextContext⟩ :=
      Mode.exists_context_after token opening hpiece.admits htokens.1
    obtain ⟨before, hrest, hposition, hscans⟩ := ih hnextContext htokens.2 hafter hopens
    obtain rfl : rest = before ++ after.cursor.rest := hrest
    refine ⟨gap ++ (written ++ before), by simp, ?_, ?_⟩
    · rw [hposition, Position.after_append, Position.after_append]
    · rw [List.cons_append, htoken]
      exact .token hgap htokens.1 (hpiece.cut htokens.1 hopens) hscans

/-! ## What has been read before a tag -/

theorem TakesEffect.isValid {opening : Position} {kind : TokenKind} {elements : List Element}
    {builder changed : Builder} (h : TakesEffect opening kind elements builder changed)
    (place : Position) : Tag.IsValid ⟨place, kind :: elements.map .element⟩ := by
  cases h with
  | echo hne _ _ _ => exact .echo place hne
  | loop hspells hbound _ _ => exact .loop place hspells hbound
  | close hspells _ _ _ _ => exact .close place hspells

/-- **One tag.** A tag that takes effect is one tag more, and the loops that are open are those of
the tags so far and this one. -/
theorem Builder.IsBehind.apply {builder changed : Builder} {tags : List Tag} {start : Token}
    {more : List Token} {name : String} {head : TagHead} {elements : List Element}
    (h : builder.IsBehind tags) (hkinds : (start :: more).map Token.kind = tagKinds name elements)
    (hname : TagHead.ofName? name = some head)
    (happly : head.apply start.start elements builder = .ok changed) :
    ∃ tag, Tag.Among (start :: more) [tag] ∧ changed.IsBehind (tags ++ [tag]) := by
  have hrun := Reading.run_tag_cons hkinds hname builder
  rw [happly] at hrun
  have hvalid := ((TagHead.apply_eq_ok_iff hname).mp happly).isValid start.start
  obtain ⟨hstart, hmore⟩ := List.cons.inj hkinds
  rw [← List.cons_append] at hmore
  obtain ⟨inner, _, rfl, hinner, hmore⟩ := List.map_eq_append_iff.mp hmore
  obtain ⟨last, _, rfl, hlast, hnil⟩ := List.map_eq_cons_iff.mp hmore
  obtain rfl := List.map_eq_nil_iff.mp hnil
  rw [← hinner] at hvalid
  refine ⟨⟨start.start, inner.map Token.kind⟩, .tag hstart (fun t ht ↦ ?_) hlast .nil, ?_⟩
  · have hkind := List.mem_map_of_mem (f := Token.kind) ht
    rw [hinner] at hkind
    rcases List.mem_cons.mp hkind with hhead | helement
    · rw [hhead]
      exact ⟨nofun, nofun⟩
    · obtain ⟨e, -, he⟩ := List.mem_map.mp helement
      rw [← he]
      exact ⟨nofun, nofun⟩
  · rcases Reading.run_tag_of_isValid h hstart hlast rfl hvalid with
      ⟨-, herror⟩ | ⟨other, hother, hbehind⟩
    · exact nomatch hrun.symm.trans herror
    · obtain rfl := Reading.between.inj (Except.ok.inj (hrun.symm.trans hother))
      exact hbehind

/-- Whether tokens are taken up to a document under construction, with the loops open in it that
are open behind the tags among them. -/
structure Builder.IsReachedBy (builder : Builder) (tokens : List Token) : Prop where
  /-- The end of the input is not among them. -/
  ne_endOfInput : ∀ token ∈ tokens, token.kind ≠ .endOfInput
  /-- They are taken. -/
  run_eq : (Reading.between .empty).run tokens = .ok (.between builder)
  /-- The loops are those of the tags. -/
  exists_tags : ∃ tags, Tag.Among tokens tags ∧ builder.IsBehind tags

namespace Builder.IsReachedBy

variable {builder changed : Builder} {tokens more : List Token}

theorem text (h : builder.IsReachedBy tokens) {token : Token} {content : String}
    (hkind : token.kind = .text content) :
    (builder.append (.text content)).IsReachedBy (tokens ++ [token]) := by
  obtain ⟨tags, hamong, hbehind⟩ := h.exists_tags
  refine ⟨List.forall_mem_append.mpr ⟨h.ne_endOfInput, List.forall_mem_singleton.mpr ?_⟩, ?_,
    tags, ?_, hbehind.append_node _⟩
  · simp [hkind]
  · rw [Reading.run_append, h.run_eq]
    dsimp only
    rw [Reading.run, Reading.step, hkind]
    rfl
  · rw [← List.append_nil tags]
    exact hamong.append (.text hkind .nil)

theorem tag (h : builder.IsReachedBy tokens) {start : Token} {name : String} {head : TagHead}
    {elements : List Element} (hkinds : (start :: more).map Token.kind = tagKinds name elements)
    (hname : TagHead.ofName? name = some head)
    (happly : head.apply start.start elements builder = .ok changed) :
    changed.IsReachedBy (tokens ++ start :: more) := by
  obtain ⟨tags, hamong, hbehind⟩ := h.exists_tags
  obtain ⟨tag, htag, hchanged⟩ := hbehind.apply hkinds hname happly
  refine ⟨List.forall_mem_append.mpr ⟨h.ne_endOfInput, fun t ht hend ↦ ?_⟩, ?_, tags ++ [tag],
    hamong.append htag, hchanged⟩
  · have hkind := List.mem_map_of_mem (f := Token.kind) ht
    rw [hkinds, hend] at hkind
    simp [tagKinds] at hkind
  · rw [Reading.run_append, h.run_eq]
    dsimp only
    rw [Reading.run_tag_cons hkinds hname, happly]

end Builder.IsReachedBy

/-- Where reading goes on between tags, the tokens so far have been taken, and the loops that are
open are those of the tags among them. -/
theorem ReadsFrom.exists_run {source : String} {stream : TokenStream} {builder : Builder}
    (h : ReadsFrom source stream builder) :
    ∃ tokens tags, (TokenStream.ofSource source).Yields tokens stream ∧
      (∀ token ∈ tokens, token.kind ≠ .endOfInput) ∧
      (Reading.between .empty).run tokens = .ok (.between builder) ∧
      Tag.Among tokens tags ∧ builder.IsBehind tags := by
  obtain ⟨tokens, hyields, htokens, hrun, tags, hamong, hbehind⟩ :=
    h.exists_yields (motive := fun tokens builder ↦ builder.IsReachedBy tokens)
      ⟨List.forall_mem_nil _, rfl, [], .nil, Builder.isBehind_empty⟩
      (fun hkind hreached ↦ hreached.text hkind)
      (fun hkinds hname happly hreached ↦ hreached.tag hkinds hname happly)
  exact ⟨tokens, tags, hyields, htokens, hrun, hamong, hbehind⟩

/-- There are as many open loops as the depth of the tags so far says. -/
theorem Builder.IsBehind.depth_eq {builder : Builder} {tags : List Tag}
    (h : builder.IsBehind tags) : Tag.depth tags = builder.headers.length := by
  obtain ⟨opened, hpending, hframes⟩ := h
  rw [hpending.depth_eq, Builder.headers, List.length_map, hframes.length_eq]

theorem Reading.consumed_of_run {tokens : List Token} {builder : Builder}
    (h : (between .empty).run tokens = .ok (between builder)) :
    Consumed (tokens.map Token.kind) builder := by
  have htold := told_run (.between (.top .done)) h
  rw [Derivation.kinds, List.nil_append] at htold
  generalize tokens.map Token.kind = kinds at htold ⊢
  cases htold with
  | between hconsumed => exact hconsumed

/-! ## Loops that are closed behind the cut -/

/-- So many END tags. -/
def endTags (count : ℕ) : String := String.join (List.replicate count endTag)

/-- The kinds of their tokens, up to the end of the input. -/
def endTagKinds (count : ℕ) : List TokenKind :=
  (List.replicate count (tagKinds "END" [])).flatten ++ [.endOfInput]

theorem endTags_succ (count : ℕ) : endTags (count + 1) = endTag ++ endTags count := by
  rw [endTags, List.replicate_succ, String.join_cons, endTags]

theorem endTagKinds_succ (count : ℕ) :
    endTagKinds (count + 1) = tagKinds "END" [] ++ endTagKinds count := by
  rw [endTagKinds, List.replicate_succ, List.flatten_cons, List.append_assoc, endTagKinds]

theorem head?_endTags (count : ℕ) : (endTags count).toList.head? ≠ some '$' := by
  cases count with
  | zero => exact nofun
  | succ count =>
    rw [endTags_succ, String.toList_append]
    exact fun h ↦ absurd (Option.some.inj h) (by decide)

theorem head?_endTagKinds (count : ℕ) (content : String) :
    (endTagKinds count).head? ≠ some (.text content) := by
  cases count with
  | zero => exact nofun
  | succ count => exact nofun

theorem lexes_endTags (count : ℕ) : Lexes .text (endTags count).toList (endTagKinds count) := by
  induction count with
  | zero => exact .endOfInput
  | succ count ih =>
    rw [endTags_succ, String.toList_append, endTagKinds_succ]
    exact Lexes.tag tagSpelling_endTag (Or.inr (SpellsEnd.isName rfl)) ih

theorem Consumed.exists_derivation {kinds : List TokenKind} {builder : Builder}
    (h : Consumed kinds builder) : ∃ t : Derivation,
      t.kinds ++ [.endOfInput] = kinds ++ endTagKinds builder.headers.length := by
  induction hheaders : builder.headers generalizing kinds builder with
  | nil =>
    cases h with
    | top t => exact ⟨t, rfl⟩
    | inLoop _ _ _ _ _ => contradiction
  | cons header headers ih =>
    obtain ⟨closed, hclosed⟩ := Option.ne_none_iff_exists'.mp
      (Builder.closeLoop?_eq_none_iff.not.mpr fun hnil ↦ nomatch hheaders.symm.trans hnil)
    obtain ⟨_, _, _, _, _, _, hbefore, -, hrest, -⟩ := Builder.closeLoop?_eq_some_iff.mp hclosed
    have hclosedHeaders : closed.headers = headers := by
      rw [hheaders] at hbefore
      rw [hrest, (List.cons.inj hbefore).2]
    have hend : SpellsEnd "END" := rfl
    obtain ⟨t, ht⟩ := ih (h.closeLoop hclosed hend) hclosedHeaders
    exact ⟨t, by rw [ht, List.length_cons, endTagKinds_succ, List.append_assoc]⟩

/-- A source with loops left open is read as a document when all of them are closed behind it. -/
theorem Document.exists_parse_endTags {before : String} {tokens : List Token} {last : Token}
    {builder : Builder}
    (hscans : Scans Exponent.size .origin .text before.toList (tokens ++ [last]))
    (hlast : last.kind = .endOfInput) (h : Consumed (tokens.map Token.kind) builder) :
    ∃ doc, Document.parse (before ++ endTags builder.headers.length) = .ok doc := by
  obtain ⟨t, ht⟩ := h.exists_derivation
  have hkinds : (tokens ++ [last]).map Token.kind = tokens.map Token.kind ++ [.endOfInput] := by
    rw [List.map_append, List.map_singleton, hlast]
  have hlexes := hscans.lexes_append hkinds (lexes_endTags builder.headers.length)
    fun hseam ↦ head?_endTags _ hseam.2
  rw [TokenKind.join_of_head_ne_text (head?_endTagKinds _), ← ht, ← String.toList_append] at hlexes
  exact ⟨_, Document.parse_of_lexes hlexes⟩

/-! ## Errors of tags -/

/-- Whether a fault is one of a tag as a whole. -/
def ParseFault.isOfTag : ParseFault → Bool
  | emptyEcho | invalidHeader _ | unexpectedEnd | unknownTag _ | elementAfterEnd _
  | misplacedToken _ => true
  | scan _ | unclosedLoop _ => false

/-- Whether an error is reported at the opening of a tag, or if the tag is unknown at the token
behind. -/
inductive ParseError.IsReportedAt (start : Token) (inTag : TokenStream) : ParseError → Prop
  | opening {fault : ParseFault} : (∀ head, fault ≠ .unknownTag head) →
    IsReportedAt start inTag ⟨fault, start.start⟩
  | first {first : Token} {rest : TokenStream} : inTag.next = (.ok first, rest) →
    IsReportedAt start inTag ⟨.unknownTag first.kind, first.start⟩

theorem ParseError.IsReportedAt.position_eq {start : Token} {inTag : TokenStream}
    {error : ParseError} (h : error.IsReportedAt start inTag)
    (hknown : ∀ head, error.fault ≠ .unknownTag head) : error.position = start.start := by
  cases h with
  | opening _ => rfl
  | first _ => exact absurd rfl (hknown _)

theorem isOfTag_of_readElements {stream : TokenStream} {done : List Element} {error : ParseError}
    (h : readElements stream done = .error error) (htag : error.fault.isOfTag = true) :
    ∃ kind, error.fault = .misplacedToken kind := by
  fun_induction readElements stream done with
  | case1 =>
    obtain rfl := Except.error.inj h
    contradiction
  | case2 => contradiction
  | case3 stream done token after hnext e hkind ih => exact ih h
  | case4 stream done token after hnext hend helement =>
    obtain rfl := Except.error.inj h
    exact ⟨token.kind, rfl⟩

/-- A tag that is refused is reported where it is, and a loop is closed that is not open only where
none is. -/
theorem isReportedAt_of_readTag {start : Token} {stream : TokenStream} {builder : Builder}
    {error : ParseError} (h : readTag start.start stream builder = .error error)
    (htag : error.fault.isOfTag = true) (harises : error.fault.Arises) :
    error.IsReportedAt start stream ∧ (error.fault = .unexpectedEnd → builder.headers = []) := by
  rcases readTag_error_cases h with ⟨e, rfl⟩ | ⟨first, after, hnext, -, rfl⟩ |
    ⟨first, after, head, -, -, hread | ⟨elements, fault, happly, rfl⟩⟩
  · contradiction
  · exact ⟨.first hnext, nofun⟩
  · obtain ⟨kind, hkind⟩ := isOfTag_of_readElements hread htag
    rw [hkind] at harises
    exact harises.elim
  · rcases TagHead.apply_eq_error_iff.mp happly with ⟨-, -, rfl⟩ | ⟨-, f, -, rfl⟩ |
      ⟨-, e, es, -, rfl⟩ | ⟨-, -, hnone, rfl⟩
    · exact ⟨.opening nofun, nofun⟩
    · exact ⟨.opening nofun, nofun⟩
    · exact ⟨.opening nofun, nofun⟩
    · exact ⟨.opening nofun, fun _ ↦ Builder.headers_eq_nil_iff.mpr hnone⟩

theorem exists_readTag_of_readFrom {source : String} {stream : TokenStream} {builder : Builder}
    {error : ParseError} (hfrom : ReadsFrom source stream builder)
    (h : Builder.readFrom stream builder = .error error) (htag : error.fault.isOfTag = true) :
    ∃ stream builder start inTag, ReadsFrom source stream builder ∧
      stream.next = (.ok start, inTag) ∧ start.kind = .tagStart ∧
      readTag start.start inTag builder = .error error := by
  fun_induction Builder.readFrom stream builder with
  | case1 stream builder e after hnext =>
    obtain rfl := Except.error.inj h
    contradiction
  | case2 stream builder token after hnext content hkind ih =>
    exact ih (.text hfrom hnext hkind) h
  | case3 stream builder start inTag hnext hstart e hread =>
    obtain rfl := Except.error.inj h
    exact ⟨stream, builder, start, inTag, hfrom, hnext, hstart, hread⟩
  | case4 stream builder start inTag hnext hstart changed rest hread ih =>
    exact ih (.tag hfrom hnext hstart hread) h
  | case5 stream builder token after hnext hkind =>
    rw [Builder.toDocument] at h
    split at h
    · contradiction
    · obtain rfl := Except.error.inj h
      contradiction
  | case6 stream builder token after hnext htext hstart hend =>
    rcases TokenStream.kind_of_next_in_text hfrom.context hnext with
      ⟨content, hkind⟩ | hkind | hkind
    · exact absurd hkind (htext content)
    · exact absurd hkind hstart
    · exact absurd hkind hend

/-- **The leftmost error.** When a tag is the reason that a source is no document, the error is
reported where the tag was opened, or if the tag is unknown at the token behind. The source before
the tag has tokens, and it is read as a document when all loops are closed behind it that are open
there. There are none if the fault is that a loop is closed. -/
theorem errors_of_tags_are_leftmost {source : String} {error : ParseError}
    (h : Document.parse source = .error error) (htag : error.fault.isOfTag = true) :
    ∃ (before behind : String) (tokens : List Token) (last start : Token) (inTag : TokenStream)
      (depth : ℕ),
      source = before ++ "\x7b$" ++ behind ∧
      tokenize before = .ok (tokens ++ [last]) ∧
      (TokenStream.ofSource source).Yields (tokens ++ [start]) inTag ∧
      start.kind = .tagStart ∧ start.start = placeAt source.toList before.toList.length ∧
      error.IsReportedAt start inTag ∧
      Tag.depth (Tag.ofTokens tokens) = depth ∧
      (∃ doc, Document.parse (before ++ endTags depth) = .ok doc) ∧
      (error.fault = .unexpectedEnd → depth = 0) := by
  obtain ⟨stream, builder, start, inTag, hfrom, hnext, hstart, hread⟩ :=
    exists_readTag_of_readFrom .start h htag
  obtain ⟨tokens, tags, hyields, htokens, hrun, hamong, hbehind⟩ := hfrom.exists_run
  obtain ⟨hreported, hnone⟩ := isReportedAt_of_readTag hread htag (arises_of_parse h)
  have hstep := stream.step_next
  rw [hnext] at hstep
  obtain ⟨hplace, rest, hrest⟩ := hstep.of_tagStart hstart
  -- The source is cut where the tag opens.
  have htext : (TokenStream.ofSource source).context = Mode.text.context .origin := rfl
  have hopens : Escaping.opensTag stream.cursor.rest = true := by
    rw [hrest]
    rfl
  obtain ⟨before, hsource, hposition, hscans⟩ :=
    hyields.scans_before htext htokens hfrom.context hopens
  replace hsource : source.toList = before ++ '{' :: '$' :: rest := hrest ▸ hsource
  rw [← String.toList_ofList (l := before)] at hscans
  refine ⟨String.ofList before, String.ofList rest, tokens, _, start, inTag,
    builder.headers.length, ?_, tokenize_eq_ok_iff_scans.mpr hscans,
    hyields.append (.cons hnext (.nil inTag)), hstart, ?_, hreported, ?_,
    Document.exists_parse_endTags hscans rfl (Reading.consumed_of_run hrun),
    fun hend ↦ List.length_eq_zero_iff.mpr (hnone hend)⟩
  · exact String.toList_inj.mp (by simp [hsource])
  · rw [hplace, hposition, hsource, String.toList_ofList]
    exact Position.after_origin_append _ _
  · rw [hamong.ofTokens_eq, hbehind.depth_eq]

theorem emptyEcho_is_leftmost :
    Document.parse "\x7b$For i 1 2$\x7da\x7b$=$\x7d" = .error ⟨.emptyEcho, ⟨14, 1, 15⟩⟩ ∧
      ∃ (before behind : String) (depth : ℕ) (doc : Document),
        "\x7b$For i 1 2$\x7da\x7b$=$\x7d" = before ++ "\x7b$" ++ behind ∧
        before.toList.length = 14 ∧ Document.parse (before ++ endTags depth) = .ok doc := by
  have hparse : Document.parse "\x7b$For i 1 2$\x7da\x7b$=$\x7d"
      = .error ⟨.emptyEcho, ⟨14, 1, 15⟩⟩ := by
    decide +kernel
  obtain ⟨before, behind, tokens, last, start, inTag, depth, hsource, -, -, -, hplace, hreported, -,
    ⟨doc, hdoc⟩, -⟩ := errors_of_tags_are_leftmost hparse rfl
  have hposition := (hreported.position_eq (by simp)).trans hplace
  have hlength : 14 = before.toList.length := congrArg Position.offset hposition
  exact ⟨hparse, before, behind, depth, doc, hsource, hlength.symm, hdoc⟩

end TagTemplate
