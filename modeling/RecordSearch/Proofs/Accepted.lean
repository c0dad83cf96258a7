import RecordSearch.Compile
import RecordSearch.Proofs.Rendering

/-!
# Accepted requests

Whether a request is accepted, and with which error it is refused otherwise, is
decided by its checks alone. For an accepted request the statement and the bound
values are known without running a binder, and this is all that compilation
does: it writes them in a style.
-/
namespace RecordSearch

open Json (Value)
open Sql (Fragment Binder Erasure Style usedAt)
open Sql.Binder (layoutAll)

/-- A request that has passed all its checks. -/
structure AcceptedRequest where
  projectId : String
  predicates : List Predicate
  associations : List AssociationFilter
  order : OrderParts
  limit : Option Nat
  offset : Option Nat

/-- The checks of a request, in the order of its plan. -/
def SearchRequest.check (limits : Limits) (request : SearchRequest) :
    Except SearchError AcceptedRequest := do
  checkRequest limits request
  let predicates ← request.filters.mapM (FilterSpec.check limits)
  let associations ← request.subqueries.mapM (SubquerySpec.check limits)
  let order ← request.orderParts
  return ⟨request.projectId, predicates, associations, order, request.limit, request.offset⟩

namespace AcceptedRequest

def elementValues (c : AcceptedRequest) : List Value :=
  c.predicates.flatMap Predicate.bound ++ c.associations.flatMap fun f => f.bound c.projectId

/-- The values of the elements, each with the number of its mentions in the text. -/
def elementUses (c : AcceptedRequest) : List (Value × Nat) :=
  c.predicates.flatMap Predicate.uses ++ c.associations.flatMap fun f => f.uses c.projectId

/-- All that is bound: the project once more, after the elements. -/
def bound (c : AcceptedRequest) : List Value := c.elementValues ++ [.string c.projectId]

theorem predicates_uses_fst (c : AcceptedRequest) :
    (c.predicates.flatMap Predicate.uses).map Prod.fst = c.predicates.flatMap Predicate.bound := by
  simp only [List.map_flatMap, Predicate.uses_fst]

theorem elementUses_fst (c : AcceptedRequest) : c.elementUses.map Prod.fst = c.elementValues := by
  rw [elementUses, List.map_append, predicates_uses_fst, elementValues]
  simp only [List.map_flatMap, AssociationFilter.uses_fst]

def conditions (c : AcceptedRequest) (n : Nat) : List Fragment :=
  layoutAll Predicate.bound Predicate.layout n c.predicates

def joins (c : AcceptedRequest) (n : Nat) : List Join :=
  layoutAll (fun f => f.1.bound c.projectId) (AssociationFilter.join c.projectId) n
    c.associations.zipIdx

/-- The plan of an accepted request whose values are bound from position `n` on. -/
def plan (c : AcceptedRequest) (n : Nat) : Plan :=
  let joins := c.joins (n + (c.predicates.flatMap Predicate.bound).length)
  { projectId := c.projectId
    select := c.order.select
    joins
    orderJoin := c.order.join
    filters := c.conditions n ++ joins.filterMap Join.absence?
    orderBy := c.order.expression
    limit := c.limit
    offset := c.offset }

def layout (c : AcceptedRequest) (n : Nat) : Fragment :=
  (c.plan n).layout (n + c.elementValues.length)

end AcceptedRequest

theorem joinSubqueries_eq_mapM (limits : Limits) (projectId : String) (index : Nat)
    (specs : List SubquerySpec) :
    joinSubqueries limits projectId index specs =
      (specs.zipIdx index).mapM fun p => p.1.join limits projectId p.2 := by
  induction specs generalizing index with
  | nil => rfl
  | cons spec specs ih => rw [joinSubqueries, List.zipIdx_cons, List.mapM_cons, ih]

theorem mapM_check_zipIdx (limits : Limits) (specs : List SubquerySpec) (index : Nat) :
    (specs.zipIdx index).mapM (fun p => (p.1.check limits).map fun f => (f, p.2)) =
      (specs.mapM (SubquerySpec.check limits)).map fun fs => fs.zipIdx index := by
  induction specs generalizing index with
  | nil => rfl
  | cons spec specs ih =>
    rw [List.zipIdx_cons, List.mapM_cons, List.mapM_cons, ih]
    cases spec.check limits with
    | error e => rfl
    | ok f => cases specs.mapM (SubquerySpec.check limits) <;> rfl

theorem flatMap_zipIdx {α β : Type} (g : α → List β) (xs : List α) (index : Nat) :
    (xs.zipIdx index).flatMap (fun p => g p.1) = xs.flatMap g := by
  rw [← List.flatMap_map Prod.fst, List.zipIdx_map_fst]

theorem map_zipIdx_fst {α β : Type} (g : α → β) (xs : List α) (index : Nat) :
    (xs.zipIdx index).map (fun p => g p.1) = xs.map g := by
  have hfst := congrArg (List.map g) (List.zipIdx_map_fst index xs)
  rwa [List.map_map] at hfst

namespace SearchRequest

theorem joins_perform (limits : Limits) (request : SearchRequest) :
    match request.subqueries.mapM (SubquerySpec.check limits) with
    | .ok fs =>
      (joinSubqueries limits request.projectId 0 request.subqueries).Writes
        (fs.flatMap fun f => f.bound request.projectId) fun n =>
          layoutAll (fun f => f.1.bound request.projectId)
            (AssociationFilter.join request.projectId) n fs.zipIdx
    | .error e => (joinSubqueries limits request.projectId 0 request.subqueries).Fails e := by
  have hall := Binder.mapM_of_performs
    (SubquerySpec.join_performs limits request.projectId) request.subqueries.zipIdx
  rw [mapM_check_zipIdx] at hall
  rw [joinSubqueries_eq_mapM]
  cases hcheck : request.subqueries.mapM (SubquerySpec.check limits) with
  | error e =>
    rw [hcheck] at hall
    exact hall
  | ok fs =>
    rw [hcheck] at hall
    have hbound := flatMap_zipIdx (AssociationFilter.bound · request.projectId) fs 0
    dsimp only [Except.map] at hall ⊢
    rw [hbound] at hall
    exact hall

def assembled (request : SearchRequest) (order : OrderParts) (conditions : List Fragment)
    (joins : List Join) : Plan where
  projectId := request.projectId
  select := order.select
  joins
  orderJoin := order.join
  filters := conditions ++ joins.filterMap Join.absence?
  orderBy := order.expression
  limit := request.limit
  offset := request.offset

theorem plan_performs (limits : Limits) (request : SearchRequest) :
    match request.check limits with
    | .ok c => (request.plan limits).Writes c.elementValues c.plan
    | .error e => (request.plan limits).Fails e := by
  have hfilters := Binder.mapM_of_performs (FilterSpec.condition_performs limits) request.filters
  have hjoins := request.joins_perform limits
  unfold check plan
  cases hrequest : checkRequest limits request with
  | error e => exact (Binder.lift_error rfl _).fails
  | ok _ =>
    rw [Binder.lift_ok rfl]
    cases hpredicates : request.filters.mapM (FilterSpec.check limits) with
    | error e =>
      rw [hpredicates] at hfilters
      exact Binder.Fails.bind hfilters _
    | ok predicates =>
      rw [hpredicates] at hfilters
      cases hassociations : request.subqueries.mapM (SubquerySpec.check limits) with
      | error e =>
        rw [hassociations] at hjoins
        exact Binder.Writes.bind_fails hfilters fun n => Binder.Fails.bind hjoins _
      | ok associations =>
        rw [hassociations] at hjoins
        cases horder : request.orderParts with
        | error e =>
          exact Binder.Writes.bind_fails hfilters fun n =>
            Binder.Writes.bind_fails hjoins fun m => (Binder.lift_error rfl _).fails
        | ok order =>
          refine Binder.Writes.bind hfilters (fun n m => request.assembled order
            (layoutAll Predicate.bound Predicate.layout n predicates)
            (layoutAll (fun f => f.1.bound request.projectId)
              (AssociationFilter.join request.projectId) m associations.zipIdx)) fun n => ?_
          exact Binder.Writes.map hjoins (request.assembled order
            (layoutAll Predicate.bound Predicate.layout n predicates))

theorem plan_writes {limits : Limits} {request : SearchRequest} {c : AcceptedRequest}
    (h : request.check limits = .ok c) : (request.plan limits).Writes c.elementValues c.plan := by
  have hplan := request.plan_performs limits
  rwa [h] at hplan

/-- An accepted request is laid out; a refused one fails with the error of its checks. -/
theorem statement_performs (limits : Limits) (request : SearchRequest) :
    match request.check limits with
    | .ok c => (request.statement limits).Writes c.bound c.layout
    | .error e => (request.statement limits).Fails e := by
  have hplan := request.plan_performs limits
  unfold statement
  cases hcheck : request.check limits with
  | error e =>
    rw [hcheck] at hplan
    exact Binder.Fails.bind hplan _
  | ok c =>
    rw [hcheck] at hplan
    exact Binder.Writes.bind hplan (fun n => (c.plan n).layout)
      fun n => (c.plan n).statement_writes

/-- Compilation is: check the request, and write its layout. -/
theorem compile_eq (limits : Limits) (style : Style) (request : SearchRequest) :
    request.compile limits style = (request.check limits).map fun c =>
      ⟨(c.layout 0).text style, style.params c.bound⟩ := by
  have hstatement := request.statement_performs limits
  rw [compile_eq_runOn]
  cases hcheck : request.check limits with
  | error e =>
    rw [hcheck] at hstatement
    have hrun := hstatement []
    rcases hcase : (request.statement limits).runOn [] with ⟨_ | f, bound⟩
    · rw [hcase] at hrun
      cases hrun
      rfl
    · rw [hcase] at hrun
      cases hrun
  | ok c =>
    rw [hcheck] at hstatement
    rw [hstatement []]
    rfl

end SearchRequest

namespace SearchRequest

/-- The parts of a request are accepted one by one. -/
structure Yields (limits : Limits) (request : SearchRequest) (c : AcceptedRequest) : Prop where
  projectId : c.projectId = request.projectId
  predicates : request.filters.mapM (FilterSpec.check limits) = .ok c.predicates
  associations : request.subqueries.mapM (SubquerySpec.check limits) = .ok c.associations
  order : request.orderParts = .ok c.order
  limit : c.limit = request.limit
  offset : c.offset = request.offset

variable {limits : Limits} {request : SearchRequest} {c : AcceptedRequest}

theorem yields_of_check (h : request.check limits = .ok c) : request.Yields limits c := by
  obtain ⟨_, -, h⟩ := bind_eq_ok h
  obtain ⟨predicates, hpredicates, h⟩ := bind_eq_ok h
  obtain ⟨associations, hassociations, h⟩ := bind_eq_ok h
  obtain ⟨order, horder, h⟩ := bind_eq_ok h
  cases h
  exact ⟨rfl, hpredicates, hassociations, horder, rfl, rfl⟩

namespace Yields

theorem predicate (h : request.Yields limits c) {p : Predicate} (hp : p ∈ c.predicates) :
    ∃ spec ∈ request.filters, spec.Yields p := by
  obtain ⟨spec, hspec, hcheck⟩ := exists_of_mem_mapM_ok h.predicates hp
  exact ⟨spec, hspec, FilterSpec.yields_of_check hcheck⟩

theorem association (h : request.Yields limits c) {f : AssociationFilter}
    (hf : f ∈ c.associations) : ∃ spec ∈ request.subqueries, spec.Yields f := by
  obtain ⟨spec, hspec, hcheck⟩ := exists_of_mem_mapM_ok h.associations hf
  exact ⟨spec, hspec, SubquerySpec.yields_of_check hcheck⟩

theorem orderParts (h : request.Yields limits c) :
    (request.order = none ∧ c.order = {}) ∨
      ∃ spec order key, request.order = some spec ∧ spec.Yields order key ∧
        c.order = order.layout key := by
  have horder := h.order
  unfold SearchRequest.orderParts at horder
  split at horder
  next spec hspec =>
    obtain ⟨order, key, -, hyields, hparts⟩ := OrderSpec.parts_eq_ok horder
    exact .inr ⟨spec, order, key, hspec, hyields, hparts⟩
  next hnone =>
    exact .inl ⟨hnone, (Except.ok.inj horder).symm⟩

/-- What is read off a condition, wherever it stands, is read off its filter. -/
theorem map_conditions (h : request.Yields limits c) {β : Type} {g : Fragment → β}
    {k : FilterSpec → β}
    (hg : ∀ spec p, spec.check limits = .ok p → ∀ m, g (p.layout m) = k spec) (n : Nat) :
    (c.conditions n).map g = request.filters.map k := by
  have hlayout : (c.conditions n).map g = c.predicates.map fun p => g (p.layout 0) := by
    apply Sql.map_layoutAll
    intro p hp m
    obtain ⟨spec, -, hcheck⟩ := exists_of_mem_mapM_ok h.predicates hp
    rw [hg spec p hcheck, hg spec p hcheck]
  rw [hlayout]
  exact map_of_mapM_ok h.predicates fun spec p hcheck => hg spec p hcheck 0

/-- What is read off a joined subquery, wherever it stands, is read off its description. -/
theorem map_subqueries (h : request.Yields limits c) {β : Type} {g : Fragment → β}
    {k : SubquerySpec → β}
    (hg : ∀ spec f, spec.check limits = .ok f →
      ∀ m, g (f.subquery request.projectId m) = k spec) (n : Nat) :
    (c.joins n).map (fun j => g j.subquery) = request.subqueries.map k := by
  have hlayout : (c.joins n).map (fun j => g j.subquery) =
      c.associations.zipIdx.map fun f => g (f.1.subquery request.projectId 0) := by
    apply Sql.map_layoutAll
    intro f hf m
    obtain ⟨spec, -, hcheck⟩ :=
      exists_of_mem_mapM_ok h.associations (List.fst_mem_of_mem_zipIdx hf)
    rw [AssociationFilter.join, h.projectId, hg spec f.1 hcheck, hg spec f.1 hcheck]
  rw [hlayout, map_zipIdx_fst fun f : AssociationFilter => g (f.subquery request.projectId 0)]
  exact map_of_mapM_ok h.associations fun spec f hcheck => hg spec f hcheck 0

theorem predicates_bound (h : request.Yields limits c) :
    c.predicates.map Predicate.bound = request.filters.map FilterSpec.boundValues :=
  map_of_mapM_ok h.predicates fun _ _ hcheck => (FilterSpec.yields_of_check hcheck).bound

theorem associations_bound (h : request.Yields limits c) :
    c.associations.map (fun f => f.values.bound) = request.subqueries.map SubquerySpec.ownValues :=
  map_of_mapM_ok h.associations fun _ _ hcheck => (SubquerySpec.yields_of_check hcheck).bound

theorem flatMap_predicates_bound (h : request.Yields limits c) :
    c.predicates.flatMap Predicate.bound = request.filters.flatMap FilterSpec.boundValues := by
  rw [List.flatMap_def, List.flatMap_def, h.predicates_bound]

theorem bound_eq (h : request.Yields limits c) : c.bound = request.boundValues := by
  have hassociations : c.associations.flatMap (fun f => f.bound c.projectId) =
      request.subqueries.flatMap fun q => q.ownValues ++ [.string request.projectId] := by
    have hbound := congrArg (List.map (· ++ [Value.string request.projectId])) h.associations_bound
    rw [List.map_map, List.map_map] at hbound
    rw [List.flatMap_def, List.flatMap_def, h.projectId]
    exact congrArg List.flatten hbound
  rw [AcceptedRequest.bound, AcceptedRequest.elementValues, SearchRequest.boundValues,
    h.flatMap_predicates_bound, hassociations, h.projectId]

theorem scalars (h : request.Yields limits c) : ∀ v ∈ c.bound, v.isScalar = true := by
  intro v hv
  simp only [AcceptedRequest.bound, AcceptedRequest.elementValues, List.mem_append,
    List.mem_flatMap, AssociationFilter.bound, List.mem_singleton] at hv
  rcases hv with (⟨p, hp, hv⟩ | ⟨f, hf, hv | rfl⟩) | rfl
  · obtain ⟨spec, -, hyields⟩ := h.predicate hp
    exact hyields.scalars v hv
  · obtain ⟨spec, -, hyields⟩ := h.association hf
    exact hyields.scalars v hv
  · rfl
  · rfl

theorem orderFragments_balanced (h : request.Yields limits c) :
    ∀ f ∈ c.order.fragments, Fragment.Balanced f ∧ Fragment.slots f = [] := by
  intro f hf
  rcases h.orderParts with ⟨-, hnone⟩ | ⟨spec, order, key, -, -, hlayout⟩
  · rw [hnone] at hf
    cases hf
  · rw [hlayout] at hf
    have hadds := Order.adds_of_mem_fragments f hf
    exact ⟨hadds.balanced, hadds.slots⟩

theorem joins_tidy (h : request.Yields limits c) (n : Nat) : ∀ j ∈ c.joins n, j.Tidy := by
  intro j hj
  obtain ⟨⟨f, index⟩, hf, m, rfl⟩ := Sql.exists_of_mem_layoutAll hj
  obtain ⟨spec, -, hyields⟩ := h.association (List.fst_mem_of_mem_zipIdx hf)
  exact ⟨ordinary_subqueryAlias index,
    AssociationFilter.balanced_subquery hyields.takes c.projectId m⟩

theorem plan_tidy (h : request.Yields limits c) (n : Nat) : (c.plan n).Tidy := by
  have horder := h.orderFragments_balanced
  simp only [OrderParts.fragments, List.mem_append, Option.mem_toList] at horder
  refine ⟨fun f hf => (horder f (.inl (.inr hf))).1, h.joins_tidy _,
    fun f hf => (horder f (.inl (.inl hf))).1, fun f hf => ?_, fun f hf => (horder f (.inr hf)).1⟩
  rcases List.mem_append.1 hf with hf | hf
  · obtain ⟨p, hp, m, rfl⟩ := Sql.exists_of_mem_layoutAll hf
    obtain ⟨spec, -, hyields⟩ := h.predicate hp
    exact hyields.balanced m
  · obtain ⟨j, hj, habsence⟩ := List.mem_filterMap.1 hf
    exact (h.joins_tidy _ j hj).balanced_absence habsence

theorem balanced (h : request.Yields limits c) (n : Nat) : Fragment.Balanced (c.layout n) :=
  (h.plan_tidy n).balanced_layout _

theorem slots_layout (h : request.Yields limits c) (n : Nat) :
    Fragment.slots (c.layout n) =
      (c.joins (n + (c.predicates.flatMap Predicate.bound).length)).flatMap
          (fun j => Fragment.slots j.subquery) ++
        (n + c.elementValues.length, .string c.projectId) ::
          (c.conditions n).flatMap Fragment.slots := by
  have horder := h.orderFragments_balanced
  simp only [OrderParts.fragments, List.mem_append, Option.mem_toList] at horder
  have habsences : ∀ joins : List Join,
      (joins.filterMap Join.absence?).flatMap Fragment.slots = [] := by
    intro joins
    rw [List.flatMap_eq_nil_iff]
    intro f hf
    obtain ⟨j, -, hj⟩ := List.mem_filterMap.1 hf
    exact j.slots_absence hj
  rw [AcceptedRequest.layout, Plan.slots_layout (fun f hf => (horder f (.inl (.inr hf))).2)
    (fun f hf => (horder f (.inl (.inl hf))).2) (fun f hf => (horder f (.inr hf)).2)]
  simp only [AcceptedRequest.plan, List.flatMap_append, habsences, List.append_nil]

theorem perm_slots (h : request.Yields limits c) (n : Nat) :
    (Fragment.slots (c.layout n)).Perm
      (usedAt n (c.elementUses ++ [(.string c.projectId, 1)])) := by
  have hconditions : ((c.conditions n).flatMap Fragment.slots).Perm
      (usedAt n (c.predicates.flatMap Predicate.uses)) :=
    Sql.perm_layoutAll (fun p _ => p.uses_fst) (fun p _ m => by rw [p.slots_layout]) n
  have hjoins : ∀ m, ((c.joins m).flatMap fun j => Fragment.slots j.subquery).Perm
      (usedAt m (c.associations.flatMap fun f => f.uses c.projectId)) := by
    intro m
    rw [← flatMap_zipIdx (fun f => AssociationFilter.uses f c.projectId) c.associations 0]
    refine Sql.perm_layoutAll (fun f _ => f.1.uses_fst c.projectId) (fun f hf m => ?_) m
    obtain ⟨spec, -, hyields⟩ := h.association (List.fst_mem_of_mem_zipIdx hf)
    exact AssociationFilter.perm_slots_subquery hyields.takes c.projectId m
  have hlength : (c.predicates.flatMap Predicate.bound).length =
      (c.predicates.flatMap Predicate.uses).length := by
    rw [← c.predicates_uses_fst, List.length_map]
  have helements : c.elementValues.length = c.elementUses.length := by
    rw [← c.elementUses_fst, List.length_map]
  have hproject : usedAt (n + c.elementUses.length) [(.string c.projectId, 1)] =
      [(n + c.elementUses.length, .string c.projectId)] := rfl
  rw [h.slots_layout, Sql.usedAt_append, hproject, helements, hlength,
    AcceptedRequest.elementUses, Sql.usedAt_append]
  have hrest := List.perm_append_comm.trans
    (hconditions.append (hjoins (n + (c.predicates.flatMap Predicate.uses).length)))
  exact (List.perm_middle.trans (hrest.cons _)).trans (List.perm_append_singleton _ _).symm

theorem uses_eq (h : request.Yields limits c) :
    c.elementUses ++ [(.string c.projectId, 1)] = request.boundUses := by
  have hpredicates : c.predicates.map Predicate.uses =
      request.filters.map fun f => f.boundValues.map fun v => (v, 1) := by
    have hbound := congrArg (List.map (List.map fun v : Value => (v, 1))) h.predicates_bound
    rw [List.map_map, List.map_map] at hbound
    exact hbound
  have hassociations : c.associations.map (fun f => f.uses c.projectId) =
      request.subqueries.map fun q =>
        q.ownValues.map (fun v => (v, 1)) ++ [(.string request.projectId, q.projectUses)] := by
    apply map_of_mapM_ok h.associations
    intro spec f hcheck
    have hyields := SubquerySpec.yields_of_check hcheck
    rw [AssociationFilter.uses, hyields.bound, hyields.projectUses, h.projectId]
  rw [AcceptedRequest.elementUses, SearchRequest.boundUses, List.flatMap_def, List.flatMap_def,
    List.flatMap_def, List.flatMap_def, hpredicates, hassociations, h.projectId]

/-- The text mentions every bound value as often as the request says. -/
theorem perm_boundUses (h : request.Yields limits c) :
    (Fragment.slots (c.layout 0)).Perm (usedAt 0 request.boundUses) := by
  rw [← h.uses_eq]
  exact h.perm_slots 0

/-- A position in the text holds the value that is bound there. -/
theorem getElem?_of_mem_slots (h : request.Yields limits c) {slot : Nat} {v : Value}
    (hmem : (slot, v) ∈ Fragment.slots (c.layout 0)) : c.bound[slot]? = some v := by
  have hused := Sql.getElem?_of_mem_usedAt (h.perm_boundUses.mem_iff.1 hmem)
  rw [boundUses_fst, Nat.sub_zero] at hused
  rw [h.bound_eq]
  exact hused.2

theorem mem_bound_of_mem_slots (h : request.Yields limits c) {s : Nat × Value}
    (hs : s ∈ Fragment.slots (c.layout 0)) : s.2 ∈ c.bound :=
  List.mem_of_getElem? (h.getElem?_of_mem_slots hs)

theorem isScalar_of_mem_slots (h : request.Yields limits c) {s : Nat × Value}
    (hs : s ∈ Fragment.slots (c.layout 0)) : s.2.isScalar = true :=
  h.scalars _ (h.mem_bound_of_mem_slots hs)

theorem clients (h : request.Yields limits c) {n : Nat} {q : Char × String}
    (hq : q ∈ Fragment.clients (c.layout n)) : q ∈ request.keyTexts := by
  obtain ⟨f, hf, hqf⟩ := Plan.mem_clients_layout hq
  have horder : f ∈ c.order.fragments → q ∈ request.keyTexts := by
    intro hf
    rcases h.orderParts with ⟨-, hnone⟩ | ⟨spec, order, key, hspec, hyields, hlayout⟩
    · rw [hnone] at hf
      cases hf
    · rw [hlayout] at hf
      refine List.mem_append_right _ ?_
      rw [hspec]
      simpa using hyields.clients f hf q hqf
  simp only [Plan.fragments, AcceptedRequest.plan, List.mem_append] at hf
  simp only [OrderParts.fragments, List.mem_append] at horder
  rcases hf with (((hf | hf) | hf) | hf | hf) | hf
  · exact horder (.inl (.inr hf))
  · obtain ⟨j, hj, rfl⟩ := List.mem_map.1 hf
    obtain ⟨⟨g, index⟩, hg, m, rfl⟩ := Sql.exists_of_mem_layoutAll hj
    obtain ⟨spec, -, hyields⟩ := h.association (List.fst_mem_of_mem_zipIdx hg)
    have hnone := AssociationFilter.clients_subquery hyields.takes c.projectId m
    simp only [AssociationFilter.join] at hqf
    rw [hnone] at hqf
    cases hqf
  · exact horder (.inl (.inl hf))
  · obtain ⟨p, hp, m, rfl⟩ := Sql.exists_of_mem_layoutAll hf
    obtain ⟨spec, hspec, hyields⟩ := h.predicate hp
    rw [hyields.clients] at hqf
    exact List.mem_append_left _ (List.mem_flatMap.2 ⟨spec, hspec, hqf⟩)
  · obtain ⟨j, -, habsence⟩ := List.mem_filterMap.1 hf
    rw [j.clients_absence habsence] at hqf
    cases hqf
  · exact horder (.inr hf)

end Yields

end SearchRequest

namespace Config

variable {config : Config} {dialect : Sql.Dialect} {request : SearchRequest}
  {compiled : CompiledSearch}

theorem build_eq (config : Config) (dialect : Sql.Dialect) (request : SearchRequest) :
    config.build dialect request = (request.check config.limits).map fun c =>
      ⟨(c.layout 0).text (config.style dialect), (config.style dialect).params c.bound⟩ :=
  request.compile_eq config.limits (config.style dialect)

theorem build_eq_ok (h : config.build dialect request = .ok compiled) :
    ∃ c, request.check config.limits = .ok c ∧ request.Yields config.limits c ∧
      compiled = ⟨(c.layout 0).text (config.style dialect),
        (config.style dialect).params c.bound⟩ := by
  rw [build_eq] at h
  cases hcheck : request.check config.limits with
  | error e =>
    rw [hcheck] at h
    cases h
  | ok c =>
    rw [hcheck] at h
    exact ⟨c, rfl, SearchRequest.yields_of_check hcheck, (Except.ok.inj h).symm⟩

end Config

end RecordSearch
