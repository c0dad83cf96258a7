import RecordSearch.Proofs.Accepted

/-!
# Placeholders without numbers

Values are bound in the order of evaluation and mentioned in the order of the
text. Placeholders that are all alike stand for the values in the order of the
text, so they can be told apart by counting only where the two orders agree:
without filters, and with no subqueries but those that ask for the project last.
-/
namespace RecordSearch

open Json (Value)
open Sql (Fragment tokens? placeholders questionMarks unnumber usedAt)

variable {limits : Limits} {request : SearchRequest} {c : AcceptedRequest}

def AssociationFilter.textValues (f : AssociationFilter) (projectId : String) : List Value :=
  List.replicate f.template.projectsBefore (.string projectId) ++ f.values.bound ++
    List.replicate f.template.projectsAfter (.string projectId)

theorem AssociationFilter.values_slots {f : AssociationFilter}
    (h : f.template.takes f.values = true) (projectId : String) (n : Nat) :
    (f.subquery projectId n).slots.map Prod.snd = f.textValues projectId := by
  rw [slots_subquery h, List.map_append, List.map_append, Sql.map_snd_usedAt, List.map_replicate,
    List.map_replicate]
  rfl

theorem SubquerySpec.Yields.textValues {spec : SubquerySpec} {f : AssociationFilter}
    (h : spec.Yields f) (projectId : String) :
    f.textValues projectId = spec.textValues projectId := by
  rw [AssociationFilter.textValues, h.bound, SubquerySpec.textValues, SubquerySpec.projectUses,
    ← h.template]
  cases f.template <;>
    simp [QueryTemplate.projectsBefore, QueryTemplate.projectsAfter, Named.name]

namespace SearchRequest.Yields

theorem values_joins (h : request.Yields limits c) (n : Nat) :
    (c.joins n).map (fun j => j.subquery.slots.map Prod.snd) =
      request.subqueries.map fun q => q.textValues request.projectId := by
  refine h.map_subqueries (g := fun f => f.slots.map Prod.snd) (fun spec f hcheck m => ?_) n
  have hyields := SubquerySpec.yields_of_check hcheck
  rw [AssociationFilter.values_slots hyields.takes, hyields.textValues]

theorem values_conditions (h : request.Yields limits c) (n : Nat) :
    (c.conditions n).map (fun f => f.slots.map Prod.snd) =
      request.filters.map FilterSpec.boundValues := by
  refine h.map_conditions (fun spec p hcheck m => ?_) n
  rw [p.slots_layout, Predicate.uses, Sql.map_snd_usedAt]
  exact (FilterSpec.yields_of_check hcheck).bound

theorem values_slots (h : request.Yields limits c) :
    (c.layout 0).slots.map Prod.snd = request.textValues := by
  rw [h.slots_layout, List.map_append, List.map_cons, List.map_flatMap, List.map_flatMap,
    SearchRequest.textValues, List.flatMap_def, List.flatMap_def, List.flatMap_def,
    List.flatMap_def, h.values_joins, h.values_conditions, h.projectId]
  rfl

end SearchRequest.Yields

/-- A subquery that compares extractions mentions its project twice. -/
def SubquerySpec.isExtraction (spec : SubquerySpec) : Bool :=
  spec.queryTemplate = "SUBQUERY_RLA_DIFFERENT_IS_EXTRACTION"

theorem SubquerySpec.length_textValues (spec : SubquerySpec) (projectId : String) :
    (spec.textValues projectId).length =
      spec.ownValues.length + 1 + if spec.isExtraction then 1 else 0 := by
  unfold textValues isExtraction projectUses
  split
  next hlast => simp [hlast]
  next =>
    split <;> simp_all

/-- The text mentions one value more than are bound for every subquery that
compares extractions. -/
theorem SearchRequest.length_textValues (request : SearchRequest) :
    request.textValues.length =
      request.boundValues.length + request.subqueries.countP SubquerySpec.isExtraction := by
  have hsubqueries : ∀ qs : List SubquerySpec,
      (qs.flatMap fun q => q.textValues request.projectId).length =
        (qs.flatMap fun q => q.ownValues ++ [.string request.projectId]).length +
          qs.countP SubquerySpec.isExtraction := by
    intro qs
    induction qs with
    | nil => rfl
    | cons q qs ih =>
      rw [List.flatMap_cons, List.flatMap_cons, List.length_append, List.length_append,
        List.length_append, List.countP_cons, ih, q.length_textValues, List.length_singleton]
      omega
  rw [textValues, boundValues, List.length_append, List.length_cons, hsubqueries]
  simp only [List.length_append, List.length_singleton]
  omega

theorem AssociationFilter.template_of_ordered {f : AssociationFilter}
    (h : f.template.takes f.values = true) (hbound : f.values.bound ≠ []) {projectId : String}
    {n : Nat} (hordered : ((f.subquery projectId n).slots.map Prod.fst).Pairwise (· < ·)) :
    f.template = .noLabel := by
  obtain ⟨v, vs, hvs⟩ := List.exists_cons_of_ne_nil hbound
  have hown : n ∈ (usedAt n (f.values.bound.map fun v => (v, 1))).map Prod.fst := by
    rw [Sql.map_fst_usedAt (by simp), hvs]
    simp [List.mem_range'_1]
  rw [slots_subquery h, List.map_append, List.map_append, List.map_replicate] at hordered
  obtain ⟨hbefore, -, -⟩ := List.pairwise_append.1 hordered
  obtain ⟨-, -, hlt⟩ := List.pairwise_append.1 hbefore
  have hnone : f.template.projectsBefore = 0 := by
    apply Nat.eq_zero_of_not_pos
    intro hpos
    have hproject : n + f.values.bound.length ∈
        List.replicate f.template.projectsBefore (n + f.values.bound.length) :=
      List.mem_replicate.2 ⟨by omega, rfl⟩
    have hfirst := hlt _ hproject n hown
    omega
  cases htemplate : f.template <;> rw [htemplate] at h hnone <;> first | rfl | cases hnone

/-- Where the project is asked for last, values are mentioned as they are bound. -/
theorem AssociationFilter.slots_of_noLabel {f : AssociationFilter}
    (h : f.template.takes f.values = true) (htemplate : f.template = .noLabel)
    (projectId : String) (n : Nat) :
    (f.subquery projectId n).slots = usedAt n (f.uses projectId) := by
  rw [slots_subquery h, uses, Sql.usedAt_append, List.length_map, htemplate]
  rfl

namespace SearchRequest.Yields

theorem lastProject_iff (h : request.Yields limits c) :
    (∀ f ∈ c.associations, f.template = .noLabel) ↔
      ∀ q ∈ request.subqueries, q.queryTemplate = "SUBQUERY_RLA_NO_LABEL" := by
  have htemplates : c.associations.map (fun f => Named.name f.template) =
      request.subqueries.map SubquerySpec.queryTemplate :=
    map_of_mapM_ok h.associations fun _ _ hcheck => (SubquerySpec.yields_of_check hcheck).template
  have hname : ∀ t : QueryTemplate, t = .noLabel ↔ Named.name t = "SUBQUERY_RLA_NO_LABEL" := by
    intro t
    cases t <;> decide
  have hmembers : (∀ s ∈ request.subqueries.map SubquerySpec.queryTemplate,
      s = "SUBQUERY_RLA_NO_LABEL") ↔ ∀ f ∈ c.associations, f.template = .noLabel := by
    rw [← htemplates, List.forall_mem_map]
    simp only [hname]
  rw [← hmembers, List.forall_mem_map]

theorem filters_eq_nil_iff (h : request.Yields limits c) :
    c.predicates = [] ↔ request.filters = [] := by
  have hlength := congrArg List.length h.predicates_bound
  rw [List.length_map, List.length_map] at hlength
  rw [← List.length_eq_zero_iff, hlength, List.length_eq_zero_iff]

theorem slots_conditions (c : AcceptedRequest) :
    (c.conditions 0).flatMap Fragment.slots = usedAt 0 (c.predicates.flatMap Predicate.uses) :=
  Sql.flatMap_layoutAll (fun p _ => p.uses_fst) (fun p _ m => p.slots_layout m) 0

theorem predicates_eq_nil (h : request.Yields limits c)
    (hordered : ((c.layout 0).slots.map Prod.fst).Pairwise (· < ·)) : c.predicates = [] := by
  have honce : ∀ u ∈ c.predicates.flatMap Predicate.uses, u.2 = 1 := by
    intro u hu
    obtain ⟨p, -, hu⟩ := List.mem_flatMap.1 hu
    obtain ⟨v, -, rfl⟩ := List.mem_map.1 hu
    rfl
  rw [h.slots_layout, List.map_append, List.map_cons, slots_conditions, Sql.map_fst_usedAt honce]
    at hordered
  obtain ⟨-, hproject, -⟩ := List.pairwise_append.1 hordered
  obtain ⟨hlt, -⟩ := List.pairwise_cons.1 hproject
  rw [List.eq_nil_iff_forall_not_mem]
  intro p hp
  obtain ⟨spec, -, hyields⟩ := h.predicate hp
  obtain ⟨v, vs, hvs⟩ := List.exists_cons_of_ne_nil hyields.bound_ne_nil
  have hused : (v, 1) ∈ c.predicates.flatMap Predicate.uses := by
    refine List.mem_flatMap.2 ⟨p, hp, ?_⟩
    rw [Predicate.uses, hvs]
    exact List.mem_cons_self
  have hfirst := hlt 0 (List.mem_range'_1.2 ⟨Nat.le_refl 0, by
    rw [Nat.zero_add]
    exact List.length_pos_of_mem hused⟩)
  exact absurd hfirst (Nat.not_lt_zero _)

theorem templates_eq (h : request.Yields limits c)
    (hordered : ((c.layout 0).slots.map Prod.fst).Pairwise (· < ·)) :
    ∀ f ∈ c.associations, f.template = .noLabel := by
  intro f hf
  obtain ⟨spec, -, hyields⟩ := h.association hf
  obtain ⟨index, hindex⟩ : ∃ index, (f, index) ∈ c.associations.zipIdx := by
    rw [← List.zipIdx_map_fst 0 c.associations] at hf
    obtain ⟨⟨g, index⟩, hmem, rfl⟩ := List.mem_map.1 hf
    exact ⟨index, hmem⟩
  rw [h.slots_layout, List.map_append, List.map_flatMap] at hordered
  obtain ⟨hjoins, -, -⟩ := List.pairwise_append.1 hordered
  obtain ⟨m, hm⟩ := Sql.exists_mem_layoutAll hindex (fun f => f.1.bound c.projectId)
    (AssociationFilter.join c.projectId) (0 + (c.predicates.flatMap Predicate.bound).length)
  exact AssociationFilter.template_of_ordered hyields.takes hyields.bound_ne_nil
    ((List.pairwise_flatMap.1 hjoins).1 _ hm)

theorem slots_joins (h : request.Yields limits c)
    (htemplates : ∀ f ∈ c.associations, f.template = .noLabel) (n : Nat) :
    (c.joins n).flatMap (fun j => j.subquery.slots) =
      usedAt n (c.associations.flatMap fun f => f.uses c.projectId) := by
  rw [← flatMap_zipIdx (fun f => AssociationFilter.uses f c.projectId) c.associations 0]
  refine Sql.flatMap_layoutAll (fun f _ => f.1.uses_fst c.projectId) (fun f hf m => ?_) n
  have hmem := List.fst_mem_of_mem_zipIdx hf
  obtain ⟨spec, -, hyields⟩ := h.association hmem
  exact AssociationFilter.slots_of_noLabel hyields.takes (htemplates f.1 hmem) c.projectId m

/-- The positions count up through the text exactly where nothing stands before
what is bound before it. -/
theorem slots_ordered_iff (h : request.Yields limits c) :
    (c.layout 0).slots.map Prod.fst = List.range' 0 c.bound.length ↔
      request.filters = [] ∧
        ∀ q ∈ request.subqueries, q.queryTemplate = "SUBQUERY_RLA_NO_LABEL" := by
  rw [← h.filters_eq_nil_iff, ← h.lastProject_iff]
  constructor
  · intro hslots
    have hordered : ((c.layout 0).slots.map Prod.fst).Pairwise (· < ·) := by
      rw [hslots]
      exact List.pairwise_lt_range'
    exact ⟨h.predicates_eq_nil hordered, h.templates_eq hordered⟩
  · rintro ⟨hpredicates, htemplates⟩
    have honce : ∀ u ∈ c.associations.flatMap fun f => f.uses c.projectId, u.2 = 1 := by
      intro u hu
      obtain ⟨f, hf, hu⟩ := List.mem_flatMap.1 hu
      rcases List.mem_append.1 hu with hu | hu
      · obtain ⟨v, -, rfl⟩ := List.mem_map.1 hu
        rfl
      · rw [List.mem_singleton.1 hu, htemplates f hf]
        rfl
    have hlength : c.elementValues.length =
        (c.associations.flatMap fun f => f.uses c.projectId).length := by
      rw [← c.elementUses_fst, List.length_map, AcceptedRequest.elementUses, hpredicates]
      rfl
    rw [h.slots_layout, slots_conditions, h.slots_joins htemplates, hpredicates, List.map_append,
      Sql.map_fst_usedAt honce, AcceptedRequest.bound, List.length_append, hlength,
      ← List.range'_append]
    simp [usedAt]

end SearchRequest.Yields

/-- A plain statement is a numbered one without its numbers. They count the
parameters, here from zero, that stand for its question marks from left to right. -/
structure CompiledSearch.Unnumbers (plain numbered : CompiledSearch) (order : List Nat) :
    Prop where
  params : plain.params = numbered.params
  sql : unnumber numbered.sql = some plain.sql
  numbers : ∃ ts, tokens? numbered.sql = some ts ∧ placeholders ts = order.map (· + 1)
  questionMarks : ∃ ts, tokens? plain.sql = some ts ∧ questionMarks ts = order.length

namespace Config

/-- The question marks of a plain statement stand for the values of the request in
the order of the text, the project of an extraction subquery twice. That is the
order of the parameters exactly for a request without filters whose subqueries all
ask for the project last. -/
theorem build_plain_in_order_iff {config : Config} {compiled : CompiledSearch}
    (hmode : config.mode = .parameterized) (h : config.build .plain request = .ok compiled) :
    ∃ numbered order, config.build .postgres request = .ok numbered ∧
      compiled.Unnumbers numbered order ∧
      order.length =
        compiled.params.length + request.subqueries.countP SubquerySpec.isExtraction ∧
      order.map (compiled.params[·]?) = request.textValues.map some ∧
      (order = List.range compiled.params.length ↔
        request.filters = [] ∧
          ∀ q ∈ request.subqueries, q.queryTemplate = "SUBQUERY_RLA_NO_LABEL") := by
  obtain ⟨mode, quoting, limits⟩ := config
  obtain rfl : mode = .parameterized := hmode
  obtain ⟨c, hcheck, hyields, rfl⟩ := build_eq_ok h
  have hbalanced := hyields.balanced 0
  obtain ⟨ts, hts, hnumbers⟩ := hbalanced.placeholders_text quoting
  obtain ⟨us, hus, hmarks⟩ := hbalanced.questionMarks_text quoting
  have hnumbered : build ⟨.parameterized, quoting, limits⟩ .postgres request =
      .ok ⟨(c.layout 0).text (Sql.numberedStyle quoting), c.bound⟩ := by
    rw [build_eq, hcheck]
    rfl
  refine ⟨_, (c.layout 0).slots.map Prod.fst, hnumbered,
    ⟨rfl, hbalanced.unnumber_text quoting, ⟨ts, hts, ?_⟩, ⟨us, hus, ?_⟩⟩, ?_, ?_, ?_⟩
  · rw [hnumbers, List.map_map]
    rfl
  · rw [hmarks, List.length_map]
  · have hlength := congrArg List.length hyields.values_slots
    rw [request.length_textValues, ← hyields.bound_eq, List.length_map] at hlength
    rw [List.length_map]
    exact hlength
  · rw [← hyields.values_slots, List.map_map, List.map_map]
    exact List.map_congr_left fun p hp => hyields.getElem?_of_mem_slots hp
  · rw [List.range_eq_range']
    exact hyields.slots_ordered_iff

/-- The first parameter is the text of the filter, but the project is asked for first. -/
theorem build_plain_out_of_order :
    ∃ compiled numbered order,
      build { mode := .parameterized } .plain
          { projectId := "p1", filters := [⟨"RECORD", "ID", "EQUAL", [.string "x"]⟩] } =
        .ok compiled ∧
      compiled.params = [.string "x", .string "p1"] ∧
      compiled.Unnumbers numbered order ∧
      order.map (compiled.params[·]?) = [some (.string "p1"), some (.string "x")] ∧
      order ≠ List.range compiled.params.length := by
  obtain ⟨compiled, h, hparams⟩ : ∃ compiled, build { mode := .parameterized } .plain
      { projectId := "p1", filters := [⟨"RECORD", "ID", "EQUAL", [.string "x"]⟩] } =
        .ok compiled ∧ compiled.params = [.string "x", .string "p1"] := by
    rw [build_eq]
    exact ⟨_, rfl, rfl⟩
  obtain ⟨numbered, order, -, hunnumbers, -, hvalues, hiff⟩ := build_plain_in_order_iff rfl h
  exact ⟨compiled, numbered, order, h, hparams, hunnumbers, hvalues,
    fun hrange => List.cons_ne_nil _ _ (hiff.1 hrange).1⟩

end Config

end RecordSearch
