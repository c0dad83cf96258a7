import RecordSearch.Proofs.Renumbering
import RecordSearch.Proofs.Stopping

/-!
# Operations one after the other

What is bound by many operations is bound in one list, and only the number of values in it
tells an operation where it stands. So an operation does behind other values what it does
on its own, with its positions moved; its values are added at the end, and no position is
used by two operations. In a literal text the positions do not show at all.
-/
namespace RecordSearch

open Json (Value)
open Sql (Fragment Piece Binder Bindings Style usedAt renumber numberedStyle)
open Sql.Binder (Simulates simulates_throw simulates_value simulates_values valuesAt layoutAll)

/-- What is asked of a binder. -/
inductive Operation where
  | text (s : String)
  | scalar (v : Value)
  | list (vs : List Value)
  | pattern (before : String) (v : Value) (after : String)
  | operand (op : Operator) (operand : Operand)
  | predicate (p : Predicate)
  | condition (f : Filter)
  | subquery (t : QueryTemplate) (values : List Value) (projectId : String) (limits : Limits)
  | plan (request : SearchRequest) (limits : Limits)

namespace Operation

def binder : Operation → Binder (List Fragment)
  | .text s => do return [← Binder.text s]
  | .scalar v => do return [← Binder.value v]
  | .list vs => do return [← Binder.values vs]
  | .pattern before v after => do return [← Binder.pattern before v after]
  | .operand op v => do return [← op.condition v]
  | .predicate p => do return [← p.condition]
  | .condition f => do return [← f.condition]
  | .subquery t values projectId limits => do
    return [← t.render (.filter values projectId limits)]
  | .plan request limits => do return (← request.plan limits).fragments

/-- Whether the operation copies nothing but closed text. Only the column of a predicate
can be any text. -/
def Closed : Operation → Prop
  | .predicate p => p.column.Closed
  | .text _ | .scalar _ | .list _ | .pattern _ _ _ | .operand _ _ => True
  | .condition _ | .subquery _ _ _ _ | .plan _ _ => True

def values (op : Operation) : List Value := (op.binder.runOn []).2

end Operation

/-- The positions that fragments mention are those of values bound from `n` on. -/
def Mentions (fs : List Fragment) (n : Nat) (vs : List Value) : Prop :=
  ∃ uses : List (Value × Nat), uses.map Prod.fst = vs ∧
    (fs.flatMap Fragment.slots).Perm (usedAt n uses)

/-- On any bindings, fragments are laid out behind them, and what they mention is bound. -/
structure Sql.Binder.Lays (b : Binder (List Fragment)) (layout : Nat → List Fragment)
    (vs : List Value) (closed : Prop) : Prop where
  writes : b.Writes vs layout
  moved : ∀ n, layout n = (layout 0).map (Fragment.shift n)
  mentions : ∀ n, Mentions (layout n) n vs
  numbered : closed → ∀ n, ∀ f ∈ layout n, Fragment.Numbered f

namespace Sql.Binder

variable {b : Binder Fragment} {layout : Nat → Fragment} {vs : List Value} {closed : Prop}

theorem Lays.single (hwrites : b.Writes vs layout)
    (hmoved : ∀ n k, layout (n + k) = Fragment.shift k (layout n))
    (uses : List (Value × Nat)) (huses : uses.map Prod.fst = vs)
    (hslots : ∀ n, (Fragment.slots (layout n)).Perm (usedAt n uses))
    (hnumbered : closed → ∀ n, Fragment.Numbered (layout n)) :
    Lays (b >>= fun f => pure [f]) (fun n => [layout n]) vs closed where
  writes := hwrites.map fun f => [f]
  moved n := by
    have h := hmoved 0 n
    rw [Nat.zero_add] at h
    rw [h]
    rfl
  mentions n := ⟨uses, huses, by simpa using hslots n⟩
  numbered h n f hf := by
    rw [List.mem_singleton.1 hf]
    exact hnumbered h n

theorem Lays.of_values (hwrites : b.Writes vs fun n => valuesAt n vs) :
    Lays (b >>= fun f => pure [f]) (fun n => [valuesAt n vs]) vs closed :=
  .single hwrites (fun n k => Sql.valuesAt_add n k vs) (vs.map fun v => (v, 1))
    (by simp [Function.comp_def]) (fun n => by rw [Sql.slots_valuesAt])
    fun _ n => (Sql.balanced_valuesAt n vs).numbered

end Sql.Binder

theorem Operator.lays_condition {op : Operator} {operand : Operand} (h : op.fits operand = true)
    (closed : Prop) :
    (op.condition operand >>= fun f => pure [f] : Binder _).Lays
      (fun n => [op.around (valuesAt n (op.bound operand))]) (op.bound operand) closed :=
  .single (condition_writes h)
    (fun n k => by rw [op.shift_around, Sql.valuesAt_add])
    ((op.bound operand).map fun v => (v, 1)) (by simp [Function.comp_def])
    (fun n => by rw [op.slots_around, Sql.slots_valuesAt])
    fun _ n => op.numbered_around n _

theorem Predicate.lays_condition {p : Predicate} (h : p.operator.fits p.operand = true)
    {closed : Prop} (hclosed : closed → p.column.Closed) :
    (p.condition >>= fun f => pure [f] : Binder _).Lays
      (fun n => [p.layout n]) p.bound closed :=
  .single (condition_writes h) p.layout_add p.uses p.uses_fst (fun n => by rw [p.slots_layout])
    fun hc n => p.numbered_layout (hclosed hc) n

theorem Filter.closed_column {f : Filter} {column : ColumnRef} (h : f.columnRef = .ok column) :
    column.Closed := by
  rcases columnRef_eq_ok h with ⟨-, rfl⟩ | ⟨-, key, -, -, rfl⟩
  · exact ColumnRef.closed_physical f.table f.column
  · exact ColumnRef.closed_payload key

theorem Filter.lays_or_rejects (f : Filter) :
    (∃ layout vs, (f.condition >>= fun g => pure [g] : Binder _).Lays layout vs True) ∨
      ∃ e, f.condition.Rejects e := by
  unfold condition
  cases hpredicate : f.predicate with
  | error e => exact .inr ⟨e, Binder.lift_error rfl _⟩
  | ok p =>
    obtain ⟨column, hcolumn, h⟩ := bind_eq_ok hpredicate
    obtain ⟨operand, hoperand, h⟩ := bind_eq_ok h
    cases h
    rw [Binder.lift_ok rfl]
    exact .inl ⟨_, _, Predicate.lays_condition (bound_of_operand hoperand).1
      fun _ => closed_column hcolumn⟩

theorem AssociationFilter.lays_subquery {f : AssociationFilter} {b : Binder Fragment}
    {projectId : String} (htakes : f.template.takes f.values = true)
    (hwrites : b.Writes (f.bound projectId) (f.subquery projectId)) :
    (b >>= fun g => pure [g]).Lays (fun n => [f.subquery projectId n]) (f.bound projectId) True :=
  .single hwrites (f.subquery_add projectId) _ (f.uses_fst projectId)
    (f.perm_slots_subquery htakes projectId)
    fun _ n => (balanced_subquery htakes projectId n).numbered

theorem QueryTemplate.lays_or_rejects (t : QueryTemplate) (limits : Limits) (projectId : String)
    (values : List Value) :
    (∃ layout vs, (t.render (.filter values projectId limits) >>= fun f => pure [f] :
        Binder _).Lays layout vs True) ∨
      ∃ e, (t.render (.filter values projectId limits)).Rejects e := by
  cases hfilter : t.isFilter with
  | true =>
    rw [render_filter hfilter]
    have hperforms := t.subquery_performs limits projectId values false
    cases hvalues : t.filterValues limits values with
    | error e =>
      rw [hvalues] at hperforms
      exact .inr ⟨e, hperforms⟩
    | ok checked =>
      rw [hvalues] at hperforms
      exact .inl ⟨_, _, AssociationFilter.lays_subquery (filterValues_eq_ok hvalues).1 hperforms⟩
  | false =>
    rw [render_filter_of_not hfilter]
    exact .inr ⟨_, fun _ => rfl⟩

theorem Sql.Piece.onValues_shift (k : Nat) : Piece.OnValues (Piece.shift k) :=
  ⟨fun _ => rfl, fun _ => rfl, fun _ => rfl⟩

theorem Sql.layoutAll_add {α γ : Type} {vs : γ → List Value} {layout : γ → Nat → α} {k : Nat}
    {move : α → α} (h : ∀ c n, layout c (n + k) = move (layout c n)) (n : Nat) (cs : List γ) :
    layoutAll vs layout (n + k) cs = (layoutAll vs layout n cs).map move := by
  induction cs generalizing n with
  | nil => rfl
  | cons c cs ih =>
    rw [layoutAll, layoutAll, List.map_cons, h, Nat.add_right_comm, ih]

namespace Plan

theorem Tidy.balanced_fragments {plan : Plan} (h : plan.Tidy) :
    ∀ f ∈ plan.fragments, Fragment.Balanced f := by
  intro f hf
  simp only [fragments, List.mem_append, Option.mem_toList, List.mem_map] at hf
  rcases hf with (((hf | ⟨j, hj, rfl⟩) | hf) | hf) | hf
  · exact h.select f hf
  · exact (h.joins j hj).subquery
  · exact h.orderJoin f hf
  · exact h.filters f hf
  · exact h.orderBy f hf

end Plan

namespace SearchRequest.Yields

variable {limits : Limits} {request : SearchRequest} {c : AcceptedRequest}

/-- Behind other values, the plan of a request is its plan with the positions moved. -/
theorem plan_add (h : request.Yields limits c) (n k : Nat) :
    c.plan (n + k) = (c.plan n).mapPieces (Piece.shift k) := by
  obtain ⟨hjoin, hselect, hexpression⟩ := OrderParts.map_of_slots (Sql.Piece.onValues_shift k)
    fun f hf => (h.orderFragments_balanced f hf).2
  have hconditions : c.conditions (n + k) = (c.conditions n).map (List.map (Piece.shift k)) :=
    Sql.layoutAll_add (fun p n => p.layout_add n k) n c.predicates
  have hjoins : ∀ m, c.joins (m + k) = (c.joins m).map (Join.mapPieces (Piece.shift k)) := by
    intro m
    refine Sql.layoutAll_add (fun f m => ?_) m c.associations.zipIdx
    rw [AssociationFilter.join, AssociationFilter.subquery_add]
    rfl
  rw [AcceptedRequest.plan, AcceptedRequest.plan, Plan.mapPieces, Nat.add_right_comm, hjoins,
    hconditions, Join.absences_mapPieces (Sql.Piece.onValues_shift k).fixed]
  simp only [List.map_append, hselect, hjoin, hexpression]

theorem mentions_fragments (h : request.Yields limits c) (n : Nat) :
    Mentions (c.plan n).fragments n c.elementValues := by
  refine ⟨c.elementUses, c.elementUses_fst, ?_⟩
  have horder := h.orderFragments_balanced
  simp only [OrderParts.fragments, List.mem_append, Option.mem_toList] at horder
  have hnone : ∀ fs : List Fragment, (∀ f ∈ fs, Fragment.slots f = []) →
      fs.flatMap Fragment.slots = [] := fun _ hfs => List.flatMap_eq_nil_iff.2 hfs
  have hfragments : (c.plan n).fragments.flatMap Fragment.slots =
      (c.joins (n + (c.predicates.flatMap Predicate.bound).length)).flatMap
          (fun j => Fragment.slots j.subquery) ++ (c.conditions n).flatMap Fragment.slots := by
    simp only [Plan.fragments, AcceptedRequest.plan, List.flatMap_append, List.flatMap_map]
    rw [hnone c.order.select fun f hf => (horder f (.inl (.inr hf))).2,
      hnone c.order.join.toList fun f hf => (horder f (.inl (.inl (by simpa using hf)))).2,
      hnone c.order.expression.toList fun f hf => (horder f (.inr (by simpa using hf))).2,
      hnone (List.filterMap _ _) fun f hf => ?_]
    · simp
    · obtain ⟨j, -, hj⟩ := List.mem_filterMap.1 hf
      exact j.slots_absence hj
  have hstatement := h.perm_slots n
  have hproject : usedAt (n + c.elementUses.length) [(.string c.projectId, 1)] =
      [(n + c.elementValues.length, .string c.projectId)] := by
    rw [← c.elementUses_fst, List.length_map]
    rfl
  rw [h.slots_layout, Sql.usedAt_append, hproject] at hstatement
  rw [hfragments]
  exact List.Perm.cons_inv (List.perm_middle.symm.trans
    (hstatement.trans (List.perm_append_singleton _ _)))

theorem lays_plan (h : request.Yields limits c)
    (hwrites : (request.plan limits).Writes c.elementValues c.plan) (closed : Prop) :
    (request.plan limits >>= fun plan => pure plan.fragments : Binder _).Lays
      (fun n => (c.plan n).fragments) c.elementValues closed where
  writes := hwrites.map Plan.fragments
  moved n := by
    have hmoved := h.plan_add 0 n
    rw [Nat.zero_add] at hmoved
    rw [hmoved, Plan.fragments_mapPieces]
    rfl
  mentions := h.mentions_fragments
  numbered _ n f hf := ((h.plan_tidy n).balanced_fragments f hf).numbered

end SearchRequest.Yields

namespace Operation

/-- An operation lays out its fragments wherever it stands, or it stops. -/
theorem lays_or_stops (op : Operation) :
    (∃ layout vs, op.binder.Lays layout vs op.Closed) ∨ ∃ vs e, op.binder.Stops vs e := by
  cases op with
  | text s => exact .inl ⟨_, _, .of_values (Binder.writes_value (.string s))⟩
  | scalar v => exact .inl ⟨_, _, .of_values (Binder.writes_value v)⟩
  | list vs => exact .inl ⟨_, _, .of_values (Binder.writes_values vs)⟩
  | pattern before v after => exact .inl ⟨_, _, .of_values (Binder.writes_value _)⟩
  | operand op v =>
    cases hfits : op.fits v with
    | true => exact .inl ⟨_, _, Operator.lays_condition hfits _⟩
    | false =>
      obtain ⟨e, he⟩ := Operator.condition_rejects hfits
      exact .inr ⟨[], e, he.stops.bind _⟩
  | predicate p =>
    cases hfits : p.operator.fits p.operand with
    | true => exact .inl ⟨_, _, Predicate.lays_condition hfits id⟩
    | false =>
      obtain ⟨e, he⟩ := Operator.condition_rejects hfits
      exact .inr ⟨[], e, (he.bind _).stops.bind _⟩
  | condition f =>
    rcases f.lays_or_rejects with hlays | ⟨e, he⟩
    · exact .inl hlays
    · exact .inr ⟨[], e, he.stops.bind _⟩
  | subquery t values projectId limits =>
    rcases t.lays_or_rejects limits projectId values with hlays | ⟨e, he⟩
    · exact .inl hlays
    · exact .inr ⟨[], e, he.stops.bind _⟩
  | plan request limits =>
    rcases request.check_or_exists_stops limits with ⟨c, hcheck⟩ | ⟨e, vs, hstops⟩
    · have hyields := SearchRequest.yields_of_check hcheck
      exact .inl ⟨_, _, hyields.lays_plan (SearchRequest.plan_writes hcheck) _⟩
    · exact .inr ⟨vs, e, hstops.plan_stops.bind _⟩

/-- What an operation does on given bindings is what it does on none, moved behind them. -/
theorem runOn_eq (op : Operation) (bound : Bindings) :
    op.binder.runOn bound =
      ((op.binder.runOn []).1.map (List.map (Fragment.shift bound.length)),
        bound ++ op.values) := by
  rcases op.lays_or_stops with ⟨layout, vs, hlays⟩ | ⟨vs, e, hstops⟩
  · rw [values, hlays.writes bound, hlays.writes [], hlays.moved bound.length]
    rfl
  · rw [values, hstops bound, hstops []]
    rfl

variable {op : Operation} {bound bound' : Bindings} {fs : List Fragment}

theorem lays_of_runOn_eq_ok (h : op.binder.runOn bound = (.ok fs, bound')) :
    Mentions fs bound.length op.values ∧ (op.Closed → ∀ f ∈ fs, Fragment.Numbered f) := by
  rcases op.lays_or_stops with ⟨layout, vs, hlays⟩ | ⟨vs, e, hstops⟩
  · have hvalues : op.values = vs := by rw [values, hlays.writes []]; rfl
    rw [hlays.writes bound] at h
    cases h
    rw [hvalues]
    exact ⟨hlays.mentions _, fun hclosed => hlays.numbered hclosed _⟩
  · rw [hstops bound] at h
    cases h

theorem exists_fresh (h : op.binder.runOn bound = (.ok fs, bound')) :
    bound' = bound ++ op.values ∧ ∃ fresh, op.binder.runOn [] = (.ok fresh, op.values) ∧
      fs = fresh.map (Fragment.shift bound.length) := by
  have heq := op.runOn_eq bound
  rw [h] at heq
  obtain ⟨houtcome, hbound⟩ := Prod.mk.inj heq
  refine ⟨hbound, ?_⟩
  cases hfresh : (op.binder.runOn []).1 with
  | error e =>
    rw [hfresh] at houtcome
    cases houtcome
  | ok fresh =>
    rw [hfresh] at houtcome
    exact ⟨fresh, Prod.ext hfresh rfl, Except.ok.inj houtcome⟩

theorem texts_of_closed (hclosed : op.Closed) {fresh : List Fragment}
    (hfresh : op.binder.runOn [] = (.ok fresh, op.values)) (n : Nat) (quoting : Sql.Quoting) :
    (fresh.map (Fragment.shift n)).map (fun f => some (f.text (numberedStyle quoting))) =
      fresh.map fun f => renumber n (f.text (numberedStyle quoting)) := by
  have hnumbered := (lays_of_runOn_eq_ok hfresh).2 hclosed
  rw [List.map_map]
  exact List.map_congr_left fun f hf => ((hnumbered f hf quoting).2 n).symm

/-- The text of a predicate is its column and, behind it, its operand renumbered. -/
theorem texts_of_predicate {p : Predicate}
    (h : (predicate p).binder.runOn [] = (.ok fs, (predicate p).values)) :
    ∃ value, (p.operator.condition p.operand).runOn [] = (.ok value, (predicate p).values) ∧
      ∀ n quoting, (fs.map (Fragment.shift n)).map (fun f =>
          some (f.text (numberedStyle quoting))) =
        [(renumber n (value.text (numberedStyle quoting))).map
          (p.column.fragment.text (numberedStyle quoting) ++ ·)] := by
  cases hfits : p.operator.fits p.operand with
  | false =>
    obtain ⟨e, he⟩ := Operator.condition_rejects hfits
    have hstops := (he.bind fun value => pure (p.column.fragment ++ value)).bind
      fun f => pure [f]
    rw [binder, Predicate.condition, hstops []] at h
    cases h
  | true =>
    have hwrites := ((Predicate.condition_writes hfits).map fun f => [f]) []
    have hoperand := Operator.condition_writes hfits []
    have hrun : (predicate p).binder.runOn [] = (.ok [p.layout 0], [] ++ p.bound) := hwrites
    rw [h] at hrun
    obtain ⟨hfs, hvalues⟩ := Prod.mk.inj hrun
    obtain rfl := Except.ok.inj hfs
    rw [hvalues]
    refine ⟨p.operator.around (valuesAt 0 p.bound), hoperand, fun n quoting => ?_⟩
    have hnumbered := (p.operator.numbered_around 0 p.bound quoting).2 n
    rw [List.map_cons, List.map_cons, Predicate.layout, Fragment.shift_append,
      p.column.shift_fragment, Fragment.text_append, hnumbered]
    rfl

/-- An operation does in every style what it does where all values are bound. -/
theorem simulates (op : Operation) (style : Style) :
    Simulates style (List.map (Fragment.inStyle style)) op.binder op.binder := by
  cases op with
  | text s => exact (simulates_value (.string s)).map fun _ => rfl
  | scalar v => exact (simulates_value v).map fun _ => rfl
  | list vs => exact (simulates_values vs).map fun _ => rfl
  | pattern before v after => exact (simulates_value _).map fun _ => rfl
  | operand op v => exact (op.condition_simulates v).map fun _ => rfl
  | predicate p => exact p.condition_simulates.map fun _ => rfl
  | condition f => exact f.condition_simulates.map fun _ => rfl
  | plan request limits =>
    exact (request.plan_simulates limits).map fun plan => plan.fragments_mapPieces _
  | subquery t values projectId limits =>
    cases hfilter : t.isFilter with
    | true =>
      rw [binder, QueryTemplate.render_filter hfilter]
      exact (t.subquery_simulates limits projectId values).map fun _ => rfl
    | false =>
      rw [binder, QueryTemplate.render_filter_of_not hfilter]
      exact simulates_throw _ _

theorem runIn_of_parameterized (op : Operation) {style : Style}
    (h : style.mode = .parameterized) (bound : Bindings) :
    op.binder.runIn style bound = op.binder.runOn bound := by
  have hrun := op.simulates style bound
  have hfragments : List.map (Fragment.inStyle style) = id := by
    rw [funext (Fragment.inStyle_of_parameterized h)]
    exact List.map_id_fun'
  rw [Style.params_of_parameterized h, Style.params_of_parameterized h, hfragments] at hrun
  rw [hrun]
  cases op.binder.runOn bound with
  | mk outcome bound' => cases outcome <;> rfl

/-- Where values are spelled out nothing is bound, and the texts are those of any run. -/
theorem texts_of_literal (op : Operation) {style : Style} (h : style.mode = .literal)
    (bound : Bindings) :
    (op.binder.runIn style []).2 = [] ∧
      (op.binder.runIn style []).1.map (List.map (Fragment.text style)) =
        (op.binder.runOn bound).1.map (List.map (Fragment.text style)) := by
  have hrun := op.simulates style bound
  rw [Style.params_of_literal h, Style.params_of_literal h] at hrun
  rw [hrun]
  refine ⟨rfl, ?_⟩
  cases (op.binder.runOn bound).1 with
  | error e => rfl
  | ok fs => simp only [Except.map, List.map_map, Function.comp_def, Fragment.text_inStyle]

/-- What an operation did behind other values, and what it does alone. -/
structure MovedBehind (op : Operation) (bound : Bindings) (fs : List Fragment)
    (bound' : Bindings) (fresh : List Fragment) : Prop where
  alone : op.binder.runOn [] = (.ok fresh, op.values)
  bindings : bound' = bound ++ op.values
  renumbered : op.Closed → ∀ quoting,
    fs.map (fun f => some (f.text (numberedStyle quoting))) =
      fresh.map fun f => renumber bound.length (f.text (numberedStyle quoting))
  /-- The column of a predicate is copied, and what follows it is renumbered. -/
  copied : ∀ p, op = .predicate p → ∃ value,
    (p.operator.condition p.operand).runOn [] = (.ok value, op.values) ∧
      ∀ quoting, fs.map (fun f => some (f.text (numberedStyle quoting))) =
        [(renumber bound.length (value.text (numberedStyle quoting))).map
          (p.column.fragment.text (numberedStyle quoting) ++ ·)]
  literal : ∀ style : Style, style.mode = .literal →
    fs.map (Fragment.text style) = fresh.map (Fragment.text style) ∧ style.params bound' = []

theorem exists_movedBehind (h : op.binder.runOn bound = (.ok fs, bound')) :
    ∃ fresh, op.MovedBehind bound fs bound' fresh := by
  obtain ⟨hbound, fresh, hfresh, rfl⟩ := exists_fresh h
  refine ⟨fresh, hfresh, hbound,
    fun hclosed quoting => texts_of_closed hclosed hfresh bound.length quoting,
    fun p hp => ?_, fun style hstyle => ⟨?_, ?_⟩⟩
  · subst hp
    obtain ⟨value, hvalue, htexts⟩ := texts_of_predicate hfresh
    exact ⟨value, hvalue, htexts bound.length⟩
  · rw [List.map_map]
    exact List.map_congr_left fun f _ => Fragment.text_shift hstyle bound.length f
  · rw [Style.params, hstyle]

end Operation

end RecordSearch
