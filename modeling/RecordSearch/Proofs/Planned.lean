import RecordSearch.Proofs.Accepted
import RecordSearch.Proofs.Shift

/-!
# Plans of accepted requests

Every slot of a plan is decided by one part of the request: joins and the tests for
negated subqueries by the subqueries, conditions by the filters, the rest by the order
and the bounds. An element of the request leaves nothing behind for the others but the
values that it binds, so that in a literal text it is what it is alone.
-/
namespace RecordSearch

open Json (Value)
open Sql (Fragment Bindings Style)
open Sql.Binder (layoutAll)

/-- The condition of a filter on given bindings, whatever other filters there are. -/
def FilterSpec.conditionOn (spec : FilterSpec) (bound : Bindings) :
    Except SearchError Fragment := do
  let filter ← Filter.resolve spec
  (filter.condition.runOn bound).1

def SubquerySpec.subqueryOn (limits : Limits) (projectId : String) (spec : SubquerySpec)
    (bound : Bindings) : Except SearchError Fragment := do
  let subquery ← Subquery.resolve spec
  ((subquery.template.render (.filter subquery.values projectId limits)).runOn bound).1

theorem FilterSpec.conditionOn_of_check {limits : Limits} {spec : FilterSpec} {p : Predicate}
    (h : spec.check limits = .ok p) (bound : Bindings) :
    spec.conditionOn bound = .ok (p.layout bound.length) := by
  have hfits := (yields_of_check h).fits
  obtain ⟨f, hresolve, h⟩ := bind_eq_ok h
  obtain ⟨operand, -, h⟩ := bind_eq_ok h
  obtain ⟨_, -, hpredicate⟩ := bind_eq_ok h
  have hcondition : f.condition.runOn bound = (.ok (p.layout bound.length), bound ++ p.bound) := by
    rw [Filter.condition, Sql.Binder.lift_ok hpredicate]
    exact Predicate.condition_writes hfits bound
  rw [conditionOn, hresolve]
  change (f.condition.runOn bound).1 = _
  rw [hcondition]

theorem SubquerySpec.subqueryOn_of_check {limits : Limits} {spec : SubquerySpec}
    {f : AssociationFilter} (h : spec.check limits = .ok f) (projectId : String)
    (bound : Bindings) :
    spec.subqueryOn limits projectId bound = .ok (f.subquery projectId bound.length) := by
  obtain ⟨q, hresolve, h⟩ := bind_eq_ok h
  obtain ⟨values, hvalues, h⟩ := bind_eq_ok h
  obtain ⟨-, hfilter, -⟩ := Subquery.resolve_eq_ok hresolve
  have hperforms := q.template.subquery_performs limits projectId q.values q.negation
  rw [hvalues] at hperforms
  cases h
  rw [subqueryOn, hresolve]
  change ((q.template.render _).runOn bound).1 = _
  rw [QueryTemplate.render_filter hfilter, hperforms bound]

theorem AcceptedRequest.text_conditions (c : AcceptedRequest) {style : Style}
    (hstyle : style.mode = .literal) (n : Nat) :
    (c.conditions n).map (Fragment.text style) =
      c.predicates.map fun p => Fragment.text style (p.layout 0) :=
  Sql.map_layoutAll (fun p _ m => p.text_layout hstyle m) n

namespace SearchRequest

def absences (request : SearchRequest) : List Fragment :=
  request.subqueries.zipIdx.filterMap fun q =>
    if q.1.negation then some [.fixed ("sq_" ++ decimal q.2 ++ ".rID IS NULL")] else none

/-- A plan that holds in every slot what the request asks for there. Its filters are the
given conditions, and the tests for negated subqueries after them. -/
structure Planned (limits : Limits) (request : SearchRequest) (bound : Bindings) (plan : Plan)
    (conditions : List Fragment) : Prop where
  projectId : plan.projectId = request.projectId
  limit : plan.limit = request.limit
  offset : plan.offset = request.offset
  joins : plan.joins.map (fun j => (j.kind, j.aliasName)) =
    request.subqueries.zipIdx.map fun q =>
      (if q.1.negation then .left else .inner, "sq_" ++ decimal q.2)
  aliases : (plan.joins.map Join.aliasName).Nodup
  filters : plan.filters = conditions ++ request.absences
  /-- Every condition is that of its filter, on what the filters before it have bound. -/
  conditions : conditions.map .ok = request.filters.zipIdx.map fun q =>
    q.1.conditionOn (bound ++ (request.filters.take q.2).flatMap FilterSpec.boundValues)
  /-- Subqueries come after all filters, and bind the project last. -/
  subqueries : (plan.joins.map fun j => .ok j.subquery) = request.subqueries.zipIdx.map fun q =>
    q.1.subqueryOn limits request.projectId
      (bound ++ request.filters.flatMap FilterSpec.boundValues ++
        (request.subqueries.take q.2).flatMap fun before =>
          before.ownValues ++ [.string request.projectId])
  orderBy : plan.orderBy.isSome = request.order.isSome
  orderJoin : plan.orderJoin.isSome = true ↔ ∃ spec order, request.order = some spec ∧
    Order.resolve spec = .ok order ∧ order.key.table = .association
  select : plan.select.length ≤ 1

variable {limits : Limits} {request : SearchRequest} {c : AcceptedRequest}

theorem plan_eq_ok {bound bound' : Bindings} {plan : Plan}
    (h : (request.plan limits).runOn bound = (.ok plan, bound')) :
    ∃ c, request.check limits = .ok c ∧ plan = c.plan bound.length := by
  cases hcheck : request.check limits with
  | error e =>
    have hplan := request.plan_performs limits
    rw [hcheck] at hplan
    have hfails := hplan bound
    rw [h] at hfails
    cases hfails
  | ok c =>
    have hwrites := plan_writes hcheck bound
    rw [h] at hwrites
    exact ⟨c, rfl, Except.ok.inj (Prod.mk.inj hwrites).1⟩

namespace Yields

/-- What is read off the kind and the alias of a join is read off the subqueries. -/
theorem map_joins_of_negation (h : request.Yields limits c) {β : Type} {g : Join → β}
    {k : Bool × Nat → β}
    (hg : ∀ negation index sql,
      g ⟨if negation then .left else .inner, sql, subqueryAlias index⟩ = k (negation, index))
    (n : Nat) :
    (c.joins n).map g = request.subqueries.zipIdx.map fun q => k (q.1.negation, q.2) := by
  have hnegations : c.associations.map AssociationFilter.negation =
      request.subqueries.map SubquerySpec.negation :=
    map_of_mapM_ok h.associations fun _ _ hcheck => (SubquerySpec.yields_of_check hcheck).negation
  have hjoins : (c.joins n).map g = c.associations.zipIdx.map fun f => k (f.1.negation, f.2) :=
    Sql.map_layoutAll (fun f _ _ => hg f.1.negation f.2 _) n
  have hindexed := congrArg (fun negations => negations.zipIdx.map k) hnegations
  simp only [List.zipIdx_map, List.map_map] at hindexed
  exact hjoins.trans hindexed

theorem filterMap_absence? (h : request.Yields limits c) (n : Nat) :
    (c.joins n).filterMap Join.absence? = request.absences := by
  have habsences := h.map_joins_of_negation (g := Join.absence?)
    (k := fun q => if q.1 then some [.fixed ("sq_" ++ decimal q.2 ++ ".rID IS NULL")] else none)
    (fun negation index sql => by cases negation <;> rfl) n
  have hpresent := congrArg (List.filterMap id) habsences
  rw [List.filterMap_map, List.filterMap_map] at hpresent
  exact hpresent

theorem nodup_aliases (h : request.Yields limits c) (n : Nat) :
    ((c.joins n).map Join.aliasName).Nodup := by
  rw [h.map_joins_of_negation (k := fun q => subqueryAlias q.2) fun _ _ _ => rfl]
  have hindices : request.subqueries.zipIdx.map (fun q => subqueryAlias q.2) =
      (List.range' 0 request.subqueries.length).map subqueryAlias := by
    rw [← List.zipIdx_map_snd, List.map_map]
    rfl
  rw [hindices, List.Nodup, List.pairwise_map]
  exact List.Pairwise.imp (fun hne heq => hne (subqueryAlias_injective heq)) List.nodup_range'

theorem map_predicates_runs (h : request.Yields limits c) :
    request.filters.map (fun spec => (spec.boundValues, spec.conditionOn)) =
      c.predicates.map fun p => (p.bound, fun bound => .ok (p.layout bound.length)) := by
  symm
  apply map_of_mapM_ok h.predicates
  intro spec p hcheck
  exact Prod.ext (FilterSpec.yields_of_check hcheck).bound
    (funext fun bound => (FilterSpec.conditionOn_of_check hcheck bound).symm)

theorem map_associations_runs (h : request.Yields limits c) :
    request.subqueries.map (fun spec => (spec.ownValues ++ [.string request.projectId],
        spec.subqueryOn limits request.projectId)) =
      c.associations.map fun f => (f.bound c.projectId,
        fun bound => .ok (f.subquery c.projectId bound.length)) := by
  symm
  apply map_of_mapM_ok h.associations
  intro spec f hcheck
  rw [h.projectId, AssociationFilter.bound, (SubquerySpec.yields_of_check hcheck).bound]
  exact Prod.ext rfl
    (funext fun bound => (SubquerySpec.subqueryOn_of_check hcheck _ bound).symm)

theorem order_slots (h : request.Yields limits c) :
    c.order.expression.isSome = request.order.isSome ∧
      (c.order.join.isSome = true ↔ ∃ spec order, request.order = some spec ∧
        Order.resolve spec = .ok order ∧ order.key.table = .association) ∧
      c.order.select.length ≤ 1 := by
  have horder := h.order
  unfold SearchRequest.orderParts at horder
  cases hspec : request.order with
  | none =>
    rw [hspec] at horder
    rw [← Except.ok.inj horder]
    simp
  | some spec =>
    rw [hspec] at horder
    obtain ⟨order, key, hresolve, -, hlayout⟩ := OrderSpec.parts_eq_ok horder
    have hjoin : (∃ spec' order', some spec = some spec' ∧ Order.resolve spec' = .ok order' ∧
        order'.key.table = .association) ↔ order.key.table = .association := by
      constructor
      · rintro ⟨spec', order', hspec', hresolve', htable⟩
        cases hspec'
        rw [hresolve] at hresolve'
        cases hresolve'
        exact htable
      · exact fun htable => ⟨spec, order, rfl, hresolve, htable⟩
    rw [hlayout, hjoin]
    exact order.layout_slots key

theorem planned (h : request.Yields limits c) (bound : Bindings) :
    request.Planned limits bound (c.plan bound.length) (c.conditions bound.length) := by
  obtain ⟨hexpression, hjoin, hselect⟩ := h.order_slots
  constructor
  case projectId => exact h.projectId
  case limit => exact h.limit
  case offset => exact h.offset
  case joins =>
    exact h.map_joins_of_negation
      (k := fun q => (if q.1 then JoinKind.left else .inner, "sq_" ++ decimal q.2))
      (fun _ _ _ => rfl) _
  case aliases => exact h.nodup_aliases _
  case filters => exact congrArg (c.conditions bound.length ++ ·) (h.filterMap_absence? _)
  case conditions => exact Sql.layoutAll_eq_runs (g := id) h.map_predicates_runs bound
  case subqueries =>
    have hstart : bound.length + (c.predicates.flatMap Predicate.bound).length =
        (bound ++ request.filters.flatMap FilterSpec.boundValues).length := by
      rw [List.length_append, h.flatMap_predicates_bound]
    have hruns := h.map_associations_runs
    rw [← map_zipIdx_fst _ c.associations 0] at hruns
    rw [AcceptedRequest.plan, AcceptedRequest.joins, hstart]
    exact Sql.layoutAll_eq_runs (g := Join.subquery) hruns _
  case orderBy => exact hexpression
  case orderJoin => exact hjoin
  case select => exact hselect

theorem text_conditions (h : request.Yields limits c) {style : Style}
    (hstyle : style.mode = .literal) (n : Nat) :
    (c.conditions n).map (fun f => .ok (Fragment.text style f)) =
      request.filters.map fun spec => (spec.conditionOn []).map (Fragment.text style) := by
  refine h.map_conditions (fun spec p hcheck m => ?_) n
  rw [FilterSpec.conditionOn_of_check hcheck, p.text_layout hstyle m]
  rfl

theorem text_joins (h : request.Yields limits c) {style : Style}
    (hstyle : style.mode = .literal) (n : Nat) :
    (c.joins n).map (fun j => .ok (Fragment.text style j.subquery)) =
      request.subqueries.map fun spec =>
        (spec.subqueryOn limits request.projectId []).map (Fragment.text style) := by
  refine h.map_subqueries (g := fun f => Except.ok (Fragment.text style f))
    (fun spec f hcheck m => ?_) n
  rw [SubquerySpec.subqueryOn_of_check hcheck, f.text_subquery hstyle]
  rfl

end Yields

/-- A request whose filters stand in another order is accepted as well, and its predicates
stand in that order. -/
theorem check_of_perm (h : request.check limits = .ok c) {filters : List FilterSpec}
    (hperm : request.filters.Perm filters) :
    ∃ predicates, { request with filters }.check limits = .ok { c with predicates } ∧
      predicates.length = filters.length ∧ predicates.Perm c.predicates ∧
      (filters.zip predicates).Perm (request.filters.zip c.predicates) := by
  have hyields := yields_of_check h
  obtain ⟨_, hwhole, -⟩ := bind_eq_ok h
  obtain ⟨predicates, hpredicates, hzip⟩ := mapM_ok_of_perm hperm hyields.predicates
  have hlength := length_of_mapM_ok hpredicates
  have hlength' := length_of_mapM_ok hyields.predicates
  have hvalues : predicates.Perm c.predicates := by
    have hsnd := hzip.map Prod.snd
    rwa [List.map_snd_zip (Nat.le_of_eq hlength),
      List.map_snd_zip (Nat.le_of_eq hlength')] at hsnd
  refine ⟨predicates, ?_, hlength, hvalues, hzip⟩
  have hcount : checkRequest limits { request with filters } = checkRequest limits request :=
    checkRequest_congr limits rfl hperm.length_eq.symm
  have horder : { request with filters }.orderParts = .ok c.order := hyields.order
  unfold check
  rw [hcount, hwhole, horder, hpredicates, hyields.associations, ← hyields.projectId,
    ← hyields.limit, ← hyields.offset]
  rfl

/-- The plan of a request whose filters stand in another order differs in the conditions
only: in a literal text each filter keeps its own. -/
theorem plan_of_perm (h : request.check limits = .ok c) {filters : List FilterSpec}
    (hperm : request.filters.Perm filters) (bound : Bindings) :
    ∃ conditions bound', ({ request with filters }.plan limits).runOn bound =
        (.ok { c.plan bound.length with filters := conditions ++ request.absences }, bound') ∧
      conditions.length = filters.length ∧
      ∀ style : Style, style.mode = .literal →
        (filters.zip (conditions.map (Fragment.text style))).Perm
          (request.filters.zip ((c.conditions bound.length).map (Fragment.text style))) := by
  obtain ⟨predicates, hcheck, hlength, hpredicates, hzip⟩ := check_of_perm h hperm
  have hstart : (predicates.flatMap Predicate.bound).length =
      (c.predicates.flatMap Predicate.bound).length :=
    (hpredicates.flatMap_right Predicate.bound).length_eq
  have hslots : ({ c with predicates } : AcceptedRequest).plan bound.length =
      { c.plan bound.length with
        filters := ({ c with predicates } : AcceptedRequest).conditions bound.length ++
          request.absences } := by
    rw [← (yields_of_check h).filterMap_absence?
      (bound.length + (c.predicates.flatMap Predicate.bound).length), ← hstart]
    simp only [AcceptedRequest.plan, hstart]
    rfl
  refine ⟨_, _, (plan_writes hcheck bound).trans (by rw [hslots]), ?_, fun style hstyle => ?_⟩
  · rw [← hlength]
    exact Sql.length_layoutAll _ _ _ _
  · rw [AcceptedRequest.text_conditions _ hstyle, AcceptedRequest.text_conditions _ hstyle,
      List.zip_map_right, List.zip_map_right]
    exact hzip.map _

/-- Whatever is bound already, the plan of a request has the shape of the request. In a
literal text its conditions and subqueries are those of the elements alone, so that the
order of the filters matters to nothing but the order of the conditions. -/
theorem plan_shape {bound bound' : Bindings} {plan : Plan}
    (h : (request.plan limits).runOn bound = (.ok plan, bound')) :
    ∃ conditions, request.Planned limits bound plan conditions ∧
      (∀ style : Style, style.mode = .literal →
        (conditions.map (fun f => .ok (Fragment.text style f)) =
            request.filters.map fun spec => (spec.conditionOn []).map (Fragment.text style)) ∧
          (plan.joins.map fun j => .ok (Fragment.text style j.subquery)) =
            request.subqueries.map fun spec =>
              (spec.subqueryOn limits request.projectId []).map (Fragment.text style)) ∧
      ∀ filters, request.filters.Perm filters →
        ∃ conditions' bound'', ({ request with filters }.plan limits).runOn bound =
            (.ok { plan with filters := conditions' ++ request.absences }, bound'') ∧
          conditions'.length = filters.length ∧
          ∀ style : Style, style.mode = .literal →
            (filters.zip (conditions'.map (Fragment.text style))).Perm
              (request.filters.zip (conditions.map (Fragment.text style))) := by
  obtain ⟨c, hcheck, rfl⟩ := plan_eq_ok h
  have hyields := yields_of_check hcheck
  refine ⟨c.conditions bound.length, hyields.planned bound, fun style hstyle => ?_,
    fun filters hperm => plan_of_perm hcheck hperm bound⟩
  constructor
  · exact hyields.text_conditions hstyle _
  · exact hyields.text_joins hstyle _

def notCreatedBy (projectId id user : String) : SearchRequest where
  projectId
  filters := [⟨"RECORD", "ID", "EQUAL", [.string id]⟩]
  subqueries := [⟨"SUBQUERY_RLA_CREATED_BY", [.string user], true⟩]
  order := some { orderBy := "RECORD_DATA@age" }

/-- The test for the negated subquery names the alias of its join. -/
theorem plan_shape_notCreatedBy :
    ∃ plan bound', ((notCreatedBy "p" "x" "u").plan {}).runOn [.bool true] = (.ok plan, bound') ∧
      plan.joins.map (fun j => (j.kind, j.aliasName)) = [(.left, "sq_0")] ∧
      plan.filters.drop 1 = [[.fixed "sq_0.rID IS NULL"]] ∧ plan.orderBy.isSome = true := by
  obtain ⟨c, hcheck⟩ : ∃ c, (notCreatedBy "p" "x" "u").check {} = .ok c := ⟨_, rfl⟩
  have hplan := (notCreatedBy "p" "x" "u").plan_performs {}
  rw [hcheck] at hplan
  have hrun := hplan [.bool true]
  obtain ⟨conditions, hshape, -⟩ := plan_shape hrun
  have hlength : conditions.length = 1 := by
    simpa [notCreatedBy] using congrArg List.length hshape.conditions
  refine ⟨_, _, hrun, hshape.joins, ?_, hshape.orderBy⟩
  rw [hshape.filters, List.drop_left' hlength]
  rfl

end SearchRequest

end RecordSearch
