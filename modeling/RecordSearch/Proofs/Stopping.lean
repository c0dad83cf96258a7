import RecordSearch.Proofs.Accepted

/-!
# Where building stops

A condition and a template are checked before they bind, so that one that fails leaves the
bindings as they are. A plan is made of many of these. It stops at the first that fails,
and what is bound then are the values of the elements before it.
-/
namespace RecordSearch

open Json (Value)
open Sql (Fragment Binder Bindings Style)

namespace Sql.Binder

variable {α β δ : Type}

/-- Where it fails, in whatever style, the bindings are what they were. -/
def Atomic (b : Binder α) : Prop :=
  ∀ (style : Style) (bound : Bindings) (e : SearchError) (bound' : Bindings),
    b.runIn style (style.params bound) = (.error e, bound') → bound' = style.params bound

/-- On any bindings, the binder succeeds and adds the values. -/
def Adds (b : Binder α) (vs : List Value) : Prop :=
  ∀ bound, ∃ a, b.runOn bound = (.ok a, bound ++ vs)

/-- On any bindings, the binder adds the values and then fails. -/
def Stops (b : Binder α) (vs : List Value) (e : SearchError) : Prop :=
  ∀ bound, b.runOn bound = (.error e, bound ++ vs)

theorem Writes.adds {b : Binder α} {vs : List Value} {layout : Nat → α}
    (h : b.Writes vs layout) : b.Adds vs :=
  fun bound => ⟨_, h bound⟩

theorem Adds.atomic {b : Binder α} {vs : List Value} {g : Style → α → α} (h : b.Adds vs)
    (hb : ∀ style, Simulates style (g style) b b) : b.Atomic := by
  intro style bound e bound' hrun
  obtain ⟨reached, hfails, -⟩ := (hb style).runIn_eq_error_iff.1 hrun
  obtain ⟨a, ha⟩ := h bound
  rw [ha] at hfails
  cases hfails

theorem Rejects.atomic {b : Binder α} {e : SearchError} {g : Style → α → α} (h : b.Rejects e)
    (hb : ∀ style, Simulates style (g style) b b) : b.Atomic := by
  intro style bound e' bound' hrun
  obtain ⟨reached, hfails, rfl⟩ := (hb style).runIn_eq_error_iff.1 hrun
  rw [h bound] at hfails
  rw [(Prod.mk.inj hfails).2]

theorem atomic_throw (e : SearchError) : Atomic (throw e : Binder α) :=
  Rejects.atomic (fun _ => rfl) fun _ => simulates_throw id e

theorem atomic_lift (x : Except SearchError α) : Atomic (liftM x : Binder α) := by
  cases x with
  | error e => exact atomic_throw e
  | ok a => exact (writes_pure a).adds.atomic fun _ => simulates_pure id a

theorem Rejects.stops {b : Binder α} {e : SearchError} (h : b.Rejects e) : b.Stops [] e := by
  intro bound
  rw [h bound, List.append_nil]

theorem Stops.bind {b : Binder α} {vs : List Value} {e : SearchError} (h : b.Stops vs e)
    (f : α → Binder β) : (b >>= f).Stops vs e := by
  intro bound
  rw [runOn_bind, h bound]

theorem Adds.bind {b : Binder α} {vs ws : List Value} {f : α → Binder β} (hb : b.Adds vs)
    (hf : ∀ a, (f a).Adds ws) : (b >>= f).Adds (vs ++ ws) := by
  intro bound
  obtain ⟨a, ha⟩ := hb bound
  rw [runOn_bind, ha, ← List.append_assoc]
  exact hf a _

theorem Adds.bind_stops {b : Binder α} {vs ws : List Value} {e : SearchError}
    {f : α → Binder β} (hb : b.Adds vs) (hf : ∀ a, (f a).Stops ws e) :
    (b >>= f).Stops (vs ++ ws) e := by
  intro bound
  obtain ⟨a, ha⟩ := hb bound
  rw [runOn_bind, ha, ← List.append_assoc]
  exact hf a _

theorem adds_pure (a : α) : Adds (pure a) [] := (writes_pure a).adds

variable {f : δ → Binder α} {vs : δ → List Value}

theorem mapM_adds {xs : List δ} (h : ∀ x ∈ xs, (f x).Adds (vs x)) :
    (xs.mapM f).Adds (xs.flatMap vs) := by
  induction xs with
  | nil => exact adds_pure []
  | cons x xs ih =>
    have hrest := ih fun y hy => h y (List.mem_cons_of_mem _ hy)
    rw [List.mapM_cons, List.flatMap_cons]
    refine (h x List.mem_cons_self).bind fun a => ?_
    rw [← List.append_nil (xs.flatMap vs)]
    exact hrest.bind fun as => adds_pure (a :: as)

/-- The elements before the first that fails have bound their values. -/
theorem mapM_stops {before : List δ} {x : δ} {e : SearchError}
    (hbefore : ∀ y ∈ before, (f y).Adds (vs y)) (hx : (f x).Rejects e) (after : List δ) :
    ((before ++ x :: after).mapM f).Stops (before.flatMap vs) e := by
  induction before with
  | nil =>
    rw [List.nil_append, List.mapM_cons]
    exact hx.stops.bind _
  | cons y before ih =>
    have hrest := ih fun z hz => hbefore z (List.mem_cons_of_mem _ hz)
    rw [List.cons_append, List.mapM_cons, List.flatMap_cons]
    exact (hbefore y List.mem_cons_self).bind_stops fun _ => hrest.bind _

end Sql.Binder

/-- Elements are all good, or one is the first that is not. -/
theorem forall_or_exists_first {α ε : Type} {good : α → Prop} {bad : α → ε → Prop}
    (h : ∀ x, good x ∨ ∃ e, bad x e) (xs : List α) :
    (∀ x ∈ xs, good x) ∨
      ∃ before x after e, xs = before ++ x :: after ∧ (∀ y ∈ before, good y) ∧ bad x e := by
  induction xs with
  | nil => exact .inl nofun
  | cons x xs ih =>
    rcases h x with hgood | ⟨e, hbad⟩
    · rcases ih with hall | ⟨before, x', after, e, rfl, hbefore, hbad⟩
      · exact .inl (List.forall_mem_cons.2 ⟨hgood, hall⟩)
      · exact .inr ⟨x :: before, x', after, e, rfl,
          List.forall_mem_cons.2 ⟨hgood, hbefore⟩, hbad⟩
    · exact .inr ⟨[], x, xs, e, rfl, nofun, hbad⟩

theorem Operator.condition_rejects {op : Operator} {operand : Operand}
    (h : op.fits operand = false) : ∃ e, (op.condition operand).Rejects e := by
  cases operand with
  | list vs =>
    cases op with
    | isIn => cases h
    | equal | contains | beginsWith | endsWith => exact ⟨_, fun _ => rfl⟩
  | scalar v =>
    cases op with
    | isIn => exact ⟨_, fun _ => rfl⟩
    | equal | contains | beginsWith | endsWith => cases h

theorem Operator.condition_atomic (op : Operator) (operand : Operand) :
    (op.condition operand).Atomic := by
  cases hfits : op.fits operand with
  | true => exact (condition_writes hfits).adds.atomic fun _ => op.condition_simulates operand
  | false =>
    obtain ⟨e, he⟩ := condition_rejects hfits
    exact he.atomic fun _ => op.condition_simulates operand

theorem Predicate.condition_atomic (p : Predicate) : p.condition.Atomic := by
  cases hfits : p.operator.fits p.operand with
  | true => exact (condition_writes hfits).adds.atomic fun _ => p.condition_simulates
  | false =>
    obtain ⟨e, he⟩ := Operator.condition_rejects hfits
    exact (he.bind _).atomic fun _ => p.condition_simulates

theorem Filter.condition_atomic (f : Filter) : f.condition.Atomic := by
  unfold condition
  cases hpredicate : f.predicate with
  | error e => exact Binder.atomic_throw e
  | ok p =>
    rw [Binder.lift_ok rfl]
    exact p.condition_atomic

theorem QueryTemplate.subquery_atomic (t : QueryTemplate) (limits : Limits) (projectId : String)
    (values : List Value) : (t.subquery limits projectId values).Atomic := by
  have hperforms := t.subquery_performs limits projectId values false
  unfold Binder.Performs at hperforms
  split at hperforms
  next => exact hperforms.adds.atomic fun _ => t.subquery_simulates limits projectId values
  next => exact hperforms.atomic fun _ => t.subquery_simulates limits projectId values

theorem Plan.statement_atomic (plan : Plan) : plan.statement.Atomic := by
  intro style bound e bound' hrun
  obtain ⟨sql, hsql⟩ := plan.exists_statement style bound
  rw [hsql] at hrun
  cases hrun

/-- Arguments that do not fit a template are refused, and those that fit are checked first. -/
theorem QueryTemplate.render_atomic (t : QueryTemplate) (arguments : TemplateArguments) :
    (t.render arguments).Atomic := by
  unfold render
  split
  next plan => exact plan.statement_atomic
  next column => exact Binder.atomic_lift column.join
  next values projectId limits =>
    split
    next => exact t.subquery_atomic limits projectId values
    next => exact Binder.atomic_throw _
  next => exact Binder.atomic_throw _

theorem FilterSpec.adds_or_rejects (limits : Limits) (spec : FilterSpec) :
    (spec.condition limits).Adds spec.boundValues ∨
      ∃ e, (spec.condition limits).Rejects e := by
  have hperforms := spec.condition_performs limits
  cases hcheck : spec.check limits with
  | error e =>
    rw [hcheck] at hperforms
    exact .inr ⟨e, hperforms⟩
  | ok p =>
    rw [hcheck] at hperforms
    rw [← (yields_of_check hcheck).bound]
    exact .inl hperforms.adds

/-- The values that a subquery of a request binds: its own, then the project. -/
def SubquerySpec.joinedValues (projectId : String) (spec : SubquerySpec) : List Value :=
  spec.ownValues ++ [.string projectId]

theorem SubquerySpec.adds_or_rejects (limits : Limits) (projectId : String)
    (spec : SubquerySpec) :
    (∀ index, (spec.join limits projectId index).Adds (spec.joinedValues projectId)) ∨
      ∃ e, ∀ index, (spec.join limits projectId index).Rejects e := by
  have hperforms := fun index => join_performs limits projectId (spec, index)
  cases hcheck : spec.check limits with
  | error e =>
    simp only [hcheck] at hperforms
    exact .inr ⟨e, hperforms⟩
  | ok f =>
    simp only [hcheck] at hperforms
    rw [joinedValues, ← (yields_of_check hcheck).bound]
    exact .inl fun index => Binder.Writes.adds (hperforms index)

namespace SearchRequest

/-- Where the plan of a request stops, with the values that are bound until then. -/
inductive Stops (limits : Limits) (request : SearchRequest) : SearchError → List Value → Prop
  /-- The request as a whole is refused. -/
  | whole {e : SearchError} : checkRequest limits request = .error e → Stops limits request e []
  | filter {before after : List FilterSpec} {spec : FilterSpec} {e : SearchError} :
      checkRequest limits request = .ok () → request.filters = before ++ spec :: after →
      (∀ s ∈ before, (s.condition limits).Adds s.boundValues) →
      (spec.condition limits).Rejects e →
      Stops limits request e (before.flatMap FilterSpec.boundValues)
  | subquery {before after : List SubquerySpec} {spec : SubquerySpec} {e : SearchError} :
      checkRequest limits request = .ok () →
      (∀ s ∈ request.filters, (s.condition limits).Adds s.boundValues) →
      request.subqueries = before ++ spec :: after →
      (∀ s ∈ before, ∀ index, (s.join limits request.projectId index).Adds
        (s.joinedValues request.projectId)) →
      (∀ index, (spec.join limits request.projectId index).Rejects e) →
      Stops limits request e (request.filters.flatMap FilterSpec.boundValues ++
        before.flatMap (SubquerySpec.joinedValues request.projectId))
  | order {e : SearchError} :
      checkRequest limits request = .ok () →
      (∀ s ∈ request.filters, (s.condition limits).Adds s.boundValues) →
      (∀ s ∈ request.subqueries, ∀ index, (s.join limits request.projectId index).Adds
        (s.joinedValues request.projectId)) →
      request.orderParts = .error e →
      Stops limits request e (request.filters.flatMap FilterSpec.boundValues ++
        request.subqueries.flatMap (SubquerySpec.joinedValues request.projectId))

variable {limits : Limits} {request : SearchRequest} {e : SearchError} {vs : List Value}

theorem joinSubqueries_adds {projectId : String} {specs : List SubquerySpec}
    (h : ∀ s ∈ specs, ∀ index, (s.join limits projectId index).Adds (s.joinedValues projectId))
    (index : Nat) : (joinSubqueries limits projectId index specs).Adds
      (specs.flatMap (SubquerySpec.joinedValues projectId)) := by
  rw [joinSubqueries_eq_mapM, ← flatMap_zipIdx _ specs index]
  exact Binder.mapM_adds fun p hp => h p.1 (List.fst_mem_of_mem_zipIdx hp) p.2

theorem joinSubqueries_stops {projectId : String} {before after : List SubquerySpec}
    {spec : SubquerySpec}
    (hbefore : ∀ s ∈ before, ∀ index,
      (s.join limits projectId index).Adds (s.joinedValues projectId))
    (hspec : ∀ index, (spec.join limits projectId index).Rejects e) (index : Nat) :
    (joinSubqueries limits projectId index (before ++ spec :: after)).Stops
      (before.flatMap (SubquerySpec.joinedValues projectId)) e := by
  rw [joinSubqueries_eq_mapM, List.zipIdx_append, List.zipIdx_cons,
    ← flatMap_zipIdx _ before index]
  exact Binder.mapM_stops (fun p hp => hbefore p.1 (List.fst_mem_of_mem_zipIdx hp) p.2)
    (hspec _) _

theorem Stops.plan_stops (h : request.Stops limits e vs) : (request.plan limits).Stops vs e := by
  unfold plan
  cases h with
  | whole hwhole => exact (Binder.lift_error hwhole _).stops
  | filter hwhole hfilters hbefore hspec =>
    rw [Binder.lift_ok hwhole, hfilters]
    exact (Binder.mapM_stops hbefore hspec _).bind _
  | subquery hwhole hfilters hsubqueries hbefore hspec =>
    rw [Binder.lift_ok hwhole, hsubqueries]
    exact (Binder.mapM_adds hfilters).bind_stops fun _ =>
      (joinSubqueries_stops hbefore hspec 0).bind _
  | order hwhole hfilters hsubqueries horder =>
    rw [Binder.lift_ok hwhole]
    refine (Binder.mapM_adds hfilters).bind_stops fun _ => ?_
    rw [← List.append_nil (request.subqueries.flatMap _)]
    exact (joinSubqueries_adds hsubqueries 0).bind_stops fun _ =>
      (Binder.lift_error horder _).stops

/-- A plan is made, or it stops somewhere. -/
theorem plan_adds_or_stops (limits : Limits) (request : SearchRequest) :
    (request.plan limits).Adds (request.filters.flatMap FilterSpec.boundValues ++
        request.subqueries.flatMap (SubquerySpec.joinedValues request.projectId)) ∨
      ∃ e vs, request.Stops limits e vs := by
  have hfilters := forall_or_exists_first (FilterSpec.adds_or_rejects limits) request.filters
  have hsubqueries := forall_or_exists_first
    (SubquerySpec.adds_or_rejects limits request.projectId) request.subqueries
  cases hwhole : checkRequest limits request with
  | error e => exact .inr ⟨e, _, .whole hwhole⟩
  | ok _ =>
    rcases hfilters with hfilters | ⟨before, spec, after, e, hsplit, hbefore, hspec⟩
    · rcases hsubqueries with hsubqueries | ⟨before, spec, after, e, hsplit, hbefore, hspec⟩
      · cases horder : request.orderParts with
        | error e => exact .inr ⟨e, _, .order hwhole hfilters hsubqueries horder⟩
        | ok order =>
          left
          rw [plan, Binder.lift_ok hwhole, ← List.append_nil (request.subqueries.flatMap _)]
          refine (Binder.mapM_adds hfilters).bind fun conditions => ?_
          refine (joinSubqueries_adds hsubqueries 0).bind fun joins => ?_
          rw [Binder.lift_ok horder]
          exact Binder.adds_pure _
      · exact .inr ⟨e, _, .subquery hwhole hfilters hsplit hbefore hspec⟩
    · exact .inr ⟨e, _, .filter hwhole hsplit hbefore hspec⟩

theorem check_or_exists_stops (limits : Limits) (request : SearchRequest) :
    (∃ c, request.check limits = .ok c) ∨ ∃ e vs, request.Stops limits e vs := by
  rcases request.plan_adds_or_stops limits with hadds | hstops
  · left
    cases hcheck : request.check limits with
    | ok c => exact ⟨c, rfl⟩
    | error e =>
      have hplan := request.plan_performs limits
      rw [hcheck] at hplan
      obtain ⟨plan, hrun⟩ := hadds []
      have hfails := hplan []
      rw [hrun] at hfails
      cases hfails
  · exact .inr hstops

/-- A plan stops where its request says, and there only. -/
theorem runOn_plan_eq_error_iff {bound bound' : Bindings} :
    (request.plan limits).runOn bound = (.error e, bound') ↔
      ∃ vs, request.Stops limits e vs ∧ bound' = bound ++ vs := by
  constructor
  · intro h
    rcases request.plan_adds_or_stops limits with hadds | ⟨e', vs, hstops⟩
    · obtain ⟨plan, hplan⟩ := hadds bound
      rw [hplan] at h
      cases h
    · rw [hstops.plan_stops bound] at h
      cases h
      exact ⟨vs, hstops, rfl⟩
  · rintro ⟨vs, hstops, rfl⟩
    exact hstops.plan_stops bound

theorem plan_eq_error_iff {style : Style} {bound bound' : Bindings} :
    (request.plan limits).runIn style (style.params bound) = (.error e, bound') ↔
      ∃ vs, request.Stops limits e vs ∧ bound' = style.params (bound ++ vs) := by
  rw [(request.plan_simulates limits).runIn_eq_error_iff]
  constructor
  · rintro ⟨reached, hrun, rfl⟩
    obtain ⟨vs, hstops, rfl⟩ := runOn_plan_eq_error_iff.1 hrun
    exact ⟨vs, hstops, rfl⟩
  · rintro ⟨vs, hstops, rfl⟩
    exact ⟨_, runOn_plan_eq_error_iff.2 ⟨vs, hstops, rfl⟩, rfl⟩

/-- The value of the filter before the one that fails stays bound. -/
example : (({ projectId := "p", filters := [⟨"RECORD", "ID", "EQUAL", [.string "x"]⟩,
      ⟨"RECORD", "CONFIDENCE", "EQUAL", [.string "y"]⟩] } : SearchRequest).plan {}).runOn [] =
    (.error (.unknown .column "RECORD.CONFIDENCE"), [.string "x"]) := by rfl

end SearchRequest

namespace Sql.Binder

/-- In every style, what is checked before it binds leaves the bindings of a failure as they
were, and a plan that fails has bound the values of the elements before the one that it
stops at. -/
theorem failures_keep_bindings :
    (∀ (op : Operator) (operand : Operand), (op.condition operand).Atomic) ∧
    (∀ p : Predicate, p.condition.Atomic) ∧
    (∀ f : Filter, f.condition.Atomic) ∧
    (∀ (t : QueryTemplate) (arguments : TemplateArguments), (t.render arguments).Atomic) ∧
    ∀ (limits : Limits) (request : SearchRequest) (style : Style) (bound : Bindings)
      (e : SearchError) (bound' : Bindings),
      (request.plan limits).runIn style (style.params bound) = (.error e, bound') ↔
        ∃ vs, request.Stops limits e vs ∧ bound' = style.params (bound ++ vs) :=
  ⟨Operator.condition_atomic, Predicate.condition_atomic, Filter.condition_atomic,
    QueryTemplate.render_atomic, fun _ _ _ _ _ _ => SearchRequest.plan_eq_error_iff⟩

end Sql.Binder

end RecordSearch
