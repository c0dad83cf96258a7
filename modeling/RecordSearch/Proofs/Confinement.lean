import RecordSearch.Proofs.Alike

/-!
# Client texts stay between quotes

In every safe style a statement has no open quote, each of its quoted regions is
one text of the compiler or one text of the client, and what stands outside
quotes does not depend on the contents of the client's texts.
-/
namespace RecordSearch

open Json (Value)
open Sql (Erasure Fragment Lexeme Token Style singleQuote tokens? outsideTexts ownRegions
  literalTokens)

/-- A filter without the contents of its values. -/
def FilterSpec.skeleton (spec : FilterSpec) : FilterSpec :=
  { spec with values := spec.values.map Erasure.contents.value }

/-- An association filter without the contents of its values. The name of a label
source is not such a content. -/
def SubquerySpec.skeleton (spec : SubquerySpec) : SubquerySpec :=
  { spec with values := spec.source?.toList ++ spec.ownValues.map Erasure.contents.value }

/-- An order without its key of the payload. -/
def OrderSpec.skeleton (spec : OrderSpec) : OrderSpec :=
  { spec with orderBy := (splitOrderKey spec.orderBy).1 }

/-- What is left of a request without the contents of its client texts: names,
numbers, truth values, lengths and bounds. -/
def SearchRequest.skeleton (request : SearchRequest) : SearchRequest where
  projectId := ""
  filters := request.filters.map FilterSpec.skeleton
  subqueries := request.subqueries.map SubquerySpec.skeleton
  order := request.order.map OrderSpec.skeleton
  limit := request.limit
  offset := request.offset

theorem contents_contents (v : Value) :
    Erasure.contents.value (Erasure.contents.value v) = Erasure.contents.value v := by
  cases v <;> rfl

namespace FilterSpec

theorem onPayload_skeleton (spec : FilterSpec) :
    spec.skeleton.onPayload = spec.onPayload := rfl

theorem payloadKeys_skeleton (spec : FilterSpec) :
    spec.skeleton.payloadKeys.map Erasure.contents.text =
      spec.payloadKeys.map Erasure.contents.text := by
  rw [payloadKeys, payloadKeys, onPayload_skeleton]
  cases spec.onPayload with
  | false => rfl
  | true =>
    simp only [skeleton, if_true]
    cases spec.values with
    | nil => rfl
    | cons v vs => cases v <;> rfl

theorem operands_skeleton (spec : FilterSpec) :
    spec.skeleton.operands = spec.operands.map Erasure.contents.value := by
  rw [operands, operands, onPayload_skeleton]
  cases spec.onPayload with
  | false => rfl
  | true => exact List.map_tail.symm

theorem boundValues_skeleton (spec : FilterSpec) :
    spec.skeleton.boundValues.map Erasure.contents.value =
      spec.boundValues.map Erasure.contents.value := by
  have hoperator : spec.skeleton.operator = spec.operator := rfl
  simp only [boundValues, operands_skeleton, hoperator]
  split
  next => simp [Function.comp_def, Erasure.contents]
  next => simp [Function.comp_def, Erasure.contents]
  next => simp [Function.comp_def, Erasure.contents]
  next => simp [Function.comp_def, contents_contents]

end FilterSpec

namespace SubquerySpec

theorem source?_skeleton (spec : SubquerySpec) : spec.skeleton.source? = spec.source? :=
  spec.source?_mapOwnValues Erasure.contents.value

theorem ownValues_skeleton (spec : SubquerySpec) :
    spec.skeleton.ownValues = spec.ownValues.map Erasure.contents.value :=
  spec.ownValues_mapOwnValues Erasure.contents.value

end SubquerySpec

theorem OrderSpec.Yields.outline_contents {spec spec' : OrderSpec} {order order' : Order}
    {key key' : String} (h : spec.Yields order key) (h' : spec'.Yields order' key')
    (hskeleton : spec.skeleton = spec'.skeleton) :
    spec.outline .contents = spec'.outline .contents := by
  simp only [skeleton, OrderSpec.mk.injEq] at hskeleton
  obtain ⟨hname, hdirection, htype⟩ := hskeleton
  have hkey : order.key = order'.key := Named.name_injective (by rw [h.name, h'.name, hname])
  have hkeys : spec.keyTexts.map (fun q => Erasure.contents.text q.2) =
      spec'.keyTexts.map fun q => Erasure.contents.text q.2 := by
    by_cases hdata : order.key = .recordData
    · rw [h.keyTexts hdata, h'.keyTexts (hkey ▸ hdata)]
      rfl
    · rw [h.keyTexts_eq_nil hdata, h'.keyTexts_eq_nil (hkey ▸ hdata)]
  rw [outline, outline, hname, hdirection, htype, hkeys]

namespace SearchRequest

variable {limits : Limits} {request request' : SearchRequest} {c c' : AcceptedRequest}

theorem Yields.order_outline (h : request.Yields limits c) (h' : request'.Yields limits c')
    (hskeleton : request.order.map OrderSpec.skeleton = request'.order.map OrderSpec.skeleton) :
    request.order.map (OrderSpec.outline .contents) =
      request'.order.map (OrderSpec.outline .contents) := by
  rcases h.orderParts with ⟨hnone, -⟩ | ⟨spec, order, key, hspec, hyields, -⟩
  · rcases h'.orderParts with ⟨hnone', -⟩ | ⟨spec', order', key', hspec', -⟩
    · rw [hnone, hnone']
    · rw [hnone, hspec'] at hskeleton
      cases hskeleton
  · rcases h'.orderParts with ⟨hnone', -⟩ | ⟨spec', order', key', hspec', hyields', -⟩
    · rw [hspec, hnone'] at hskeleton
      cases hskeleton
    · rw [hspec, hspec'] at hskeleton ⊢
      simp only [Option.map_some, Option.some.injEq] at hskeleton ⊢
      exact hyields.outline_contents hyields' hskeleton

/-- Accepted requests with the same skeleton differ in the contents of texts only. -/
theorem Yields.alikeUpTo_contents (h : request.Yields limits c) (h' : request'.Yields limits c')
    (hskeleton : request.skeleton = request'.skeleton) :
    request.AlikeUpTo .contents request' := by
  simp only [skeleton, SearchRequest.mk.injEq, true_and] at hskeleton
  obtain ⟨hfilters, hsubqueries, horder, hlimit, hoffset⟩ := hskeleton
  have hfilter : ∀ spec : FilterSpec,
      spec.skeleton.outline .contents = spec.outline .contents := by
    intro spec
    rw [FilterSpec.outline, FilterSpec.payloadKeys_skeleton, FilterSpec.boundValues_skeleton]
    rfl
  have hsubquery : ∀ spec : SubquerySpec,
      spec.skeleton.outline .contents = spec.outline .contents := by
    intro spec
    rw [SubquerySpec.outline, SubquerySpec.source?_skeleton, SubquerySpec.ownValues_skeleton,
      List.map_map]
    simp only [Function.comp_def, contents_contents]
    rfl
  constructor
  case project => rfl
  case filters => exact map_congr_of_reduced hfilter hfilters
  case subqueries => exact map_congr_of_reduced hsubquery hsubqueries
  case order =>
    exact h.order_outline h' horder
  case limit => exact hlimit
  case offset => exact hoffset

end SearchRequest

/-- A region of the literal of a scalar is a text, and its content is that text. -/
theorem Sql.quoted_mem_literalTokens {v : Value} (hscalar : v.isScalar = true) {quote : Char}
    {content : String} (h : .quoted quote content ∈ literalTokens v) :
    quote = singleQuote ∧ v = .string content := by
  cases v with
  | string s =>
    obtain ⟨rfl, rfl⟩ := Token.quoted.inj (List.mem_singleton.1 h)
    exact ⟨rfl, rfl⟩
  | bool b | number n =>
    rw [literalTokens] at h
    obtain ⟨c, -, hc⟩ := List.mem_map.1 h
    cases hc
  | null | array _ | object _ => cases hscalar

theorem Sql.Fragment.Lexed.quoted_token {f : Fragment} {ls : List Lexeme} (h : f.Lexed ls)
    (hscalars : ∀ p ∈ f.slots, p.2.isScalar = true) {style : Style} {quote : Char}
    {content : String} (hmem : .quoted quote content ∈ ls.flatMap (Lexeme.tokens style)) :
    (quote, content) ∈ ownRegions ∨ (quote, content) ∈ f.clients ∨
      quote = singleQuote ∧ ∃ slot, (slot, .string content) ∈ f.slots := by
  obtain ⟨l, hl, htoken⟩ := List.mem_flatMap.1 hmem
  cases l with
  | bare c => cases List.mem_singleton.1 htoken
  | quoted quote' content' =>
    obtain ⟨rfl, rfl⟩ := Token.quoted.inj (List.mem_singleton.1 htoken)
    exact (h.quoted _ _ hl).imp_right .inl
  | value slot v =>
    have hslot : (slot, v) ∈ f.slots := by
      rw [← h.slots]
      exact List.mem_filterMap.2 ⟨_, hl, rfl⟩
    simp only [Lexeme.tokens] at htoken
    cases hmode : style.mode with
    | literal =>
      rw [hmode] at htoken
      obtain ⟨rfl, rfl⟩ := quoted_mem_literalTokens (hscalars _ hslot) htoken
      exact .inr (.inr ⟨rfl, slot, hslot⟩)
    | parameterized =>
      rw [hmode] at htoken
      obtain ⟨c, -, hc⟩ := List.mem_map.1 htoken
      cases hc

namespace SearchRequest

variable {limits : Limits} {request request' : SearchRequest} {c c' : AcceptedRequest}

theorem Yields.quoted_token (h : request.Yields limits c) {ls : List Lexeme}
    (hlexed : (c.layout 0).Lexed ls) {style : Style} {quote : Char} {content : String}
    (hmem : .quoted quote content ∈ ls.flatMap (Lexeme.tokens style)) :
    (quote, content) ∈ ownRegions ∨ (quote, content) ∈ request.clientTexts := by
  have hscalars : ∀ p ∈ (c.layout 0).slots, p.2.isScalar = true := fun _ hp =>
    h.isScalar_of_mem_slots hp
  rcases hlexed.quoted_token hscalars hmem with hown | hclient | ⟨rfl, slot, hslot⟩
  · exact .inl hown
  · exact .inr (List.mem_append_left _ (h.clients hclient))
  · have hvalue := h.mem_bound_of_mem_slots hslot
    rw [h.bound_eq] at hvalue
    exact .inr (List.mem_append_right _ (List.mem_filterMap.2 ⟨_, hvalue, rfl⟩))

end SearchRequest

namespace Config

theorem style_safe {config : Config}
    (h : config.mode = .parameterized ∨ config.quoting = .escaped) (dialect : Sql.Dialect) :
    (config.style dialect).Safe := h

/-- No client text leaves its quotes: every quote is closed, every region is one of
the compiler's texts or one whole text of the client, and the texts outside quotes
are the same for all accepted requests with the same skeleton. -/
theorem build_confines_client_texts {config : Config}
    (hsafe : config.mode = .parameterized ∨ config.quoting = .escaped) {dialect : Sql.Dialect}
    {request : SearchRequest} {compiled : CompiledSearch}
    (h : config.build dialect request = .ok compiled) :
    ∃ ts, tokens? compiled.sql = some ts ∧
      (∀ (quote : Char) (content : String), .quoted quote content ∈ ts →
        (quote, content) ∈ ownRegions ∨ (quote, content) ∈ request.clientTexts) ∧
      ∀ (request' : SearchRequest) (compiled' : CompiledSearch),
        request.skeleton = request'.skeleton → config.build dialect request' = .ok compiled' →
        ∃ ts', tokens? compiled'.sql = some ts' ∧ outsideTexts ts' = outsideTexts ts := by
  obtain ⟨c, -, hyields, rfl⟩ := build_eq_ok h
  have hstyle := style_safe hsafe dialect
  obtain ⟨ls, hlexed⟩ := (hyields.balanced 0).lexed
  refine ⟨_, hlexed.tokens hstyle, fun _ _ hmem => hyields.quoted_token hlexed hmem, ?_⟩
  intro request' compiled' hskeleton h'
  obtain ⟨c', -, hyields', rfl⟩ := build_eq_ok h'
  obtain ⟨ls', hlexed'⟩ := (hyields'.balanced 0).lexed
  have halike := hyields.alikeUpTo_contents hyields' hskeleton
  have htexts := Fragment.outsideTexts_congr (hyields.balanced 0) (hyields'.balanced 0)
    (hyields.erase_layout hyields' halike 0) hstyle
  rw [hlexed.tokens hstyle, hlexed'.tokens hstyle] at htexts
  exact ⟨_, hlexed'.tokens hstyle, (Option.some.inj htexts).symm⟩

def byPayload (projectId key text : String) : SearchRequest where
  projectId
  filters := [⟨"RECORD", "DATA", "EQUAL", [.string key, .string text]⟩]
  order := some { orderBy := "RECORD_DATA@" ++ key }

/-- Texts made of quotes stay between quotes like any others. -/
theorem build_confines_quotes :
    ∃ compiled compiled' ts ts',
      build { quoting := .escaped } .postgres (byPayload "p' OR '1'='1" "k'\"" "' --") =
          .ok compiled ∧
        build { quoting := .escaped } .postgres (byPayload "p" "k" "x") = .ok compiled' ∧
        tokens? compiled.sql = some ts ∧ tokens? compiled'.sql = some ts' ∧
        outsideTexts ts' = outsideTexts ts := by
  obtain ⟨compiled, h⟩ : ∃ compiled, build { quoting := .escaped } .postgres
      (byPayload "p' OR '1'='1" "k'\"" "' --") = .ok compiled := by
    rw [build_eq]
    exact ⟨_, rfl⟩
  obtain ⟨compiled', h'⟩ : ∃ compiled, build { quoting := .escaped } .postgres
      (byPayload "p" "k" "x") = .ok compiled := by
    rw [build_eq]
    exact ⟨_, rfl⟩
  obtain ⟨ts, hts, -, halike⟩ := build_confines_client_texts (.inr rfl) h
  obtain ⟨ts', hts', houtside⟩ := halike (byPayload "p" "k" "x") compiled' rfl h'
  exact ⟨compiled, compiled', ts, ts', h, h', hts, hts', houtside⟩

end Config

end RecordSearch
