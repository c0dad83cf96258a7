import RecordSearch.Compile
import RecordSearch.Proofs.Association
import RecordSearch.Proofs.Condition
import RecordSearch.Proofs.Ordering
import RecordSearch.Proofs.Statement

/-!
# Runs in a style

Every style runs a request the same way. Where values are spelled out nothing is bound, and
the pieces of the text hold their values as literals; otherwise the run is that of any style
with placeholders. In both cases it can be read off the run that binds every value: errors are
the same, a result is the result of that run with the values put in as the style writes them,
and what is bound are the parameters of the style.
-/
namespace RecordSearch

open Json (Value)
open Sql (Fragment Piece Bindings Binder Style Substitution)

namespace Sql

/-- A piece as a run in a style has it: a value that the style spells out is text. -/
def Piece.inStyle (style : Style) : Piece → Piece
  | .value slot v =>
    match style.mode with
    | .literal => .fixed (String.ofList (literal style.quoting v))
    | .parameterized => .value slot v
  | .fixed text => .fixed text
  | .key text => .key text
  | .ident text => .ident text

def Fragment.inStyle (style : Style) (f : Fragment) : Fragment := f.map (Piece.inStyle style)

variable {style : Style}

theorem Piece.chars_inStyle (p : Piece) : (p.inStyle style).chars style = p.chars style := by
  cases p with
  | fixed text | key text | ident text => rfl
  | value slot v => cases h : style.mode <;> simp [inStyle, chars, h]

theorem Fragment.text_inStyle (f : Fragment) :
    text style (inStyle style f) = text style f := by
  rw [text, text, inStyle, chars_map Piece.chars_inStyle]

theorem Fragment.inStyle_of_parameterized (h : style.mode = .parameterized) (f : Fragment) :
    inStyle style f = f := by
  refine (List.map_congr_left fun p _ => ?_).trans (List.map_id f)
  cases p with
  | value slot v => simp only [Piece.inStyle, h, id_eq]
  | fixed text | key text | ident text => rfl

/-- What changes values only. -/
structure Piece.OnValues (g : Piece → Piece) : Prop where
  fixed : ∀ text, g (.fixed text) = .fixed text
  key : ∀ text, g (.key text) = .key text
  ident : ∀ text, g (.ident text) = .ident text

theorem Piece.onValues_inStyle (style : Style) : OnValues (inStyle style) :=
  ⟨fun _ => rfl, fun _ => rfl, fun _ => rfl⟩

theorem Fragment.map_of_slots {g : Piece → Piece} (hg : Piece.OnValues g) {f : Fragment}
    (h : slots f = []) : f.map g = f := by
  rw [slots, List.filterMap_eq_nil_iff] at h
  refine (List.map_congr_left fun p hp => ?_).trans (List.map_id f)
  cases p with
  | value slot v => cases h _ hp
  | fixed text => exact hg.fixed text
  | key text => exact hg.key text
  | ident text => exact hg.ident text

theorem Style.params_of_literal (h : style.mode = .literal) (bound : Bindings) :
    style.params bound = [] := by
  rw [params, h]

theorem Style.params_of_parameterized (h : style.mode = .parameterized) (bound : Bindings) :
    style.params bound = bound := by
  rw [params, h]

theorem Style.params_nil (style : Style) : style.params [] = [] := by
  unfold Style.params
  split <;> rfl

namespace Binder

variable {α β γ δ : Type}

/-- In a style, `w` ends as `b` ends with every value bound: with the same error, or with a
result that is the other one under `g`. It binds the parameters of the style. -/
def Simulates (style : Style) (g : α → β) (w : Binder β) (b : Binder α) : Prop :=
  ∀ bound, w.runIn style (style.params bound) =
    ((b.runOn bound).1.map g, style.params (b.runOn bound).2)

theorem simulates_pure (g : α → β) (a : α) : Simulates style g (pure (g a)) (pure a) :=
  fun _ => rfl

theorem simulates_throw (g : α → β) (e : SearchError) :
    Simulates style g (throw e) (throw e) :=
  fun _ => rfl

theorem Simulates.bind {g : α → β} {h : γ → δ} {w : Binder β} {b : Binder α}
    (hb : Simulates style g w b) {f' : β → Binder δ} {f : α → Binder γ}
    (hf : ∀ a, Simulates style h (f' (g a)) (f a)) :
    Simulates style h (w >>= f') (b >>= f) := by
  intro bound
  rw [runIn_bind, runOn_bind, hb bound]
  rcases b.runOn bound with ⟨_ | a, bound'⟩
  · rfl
  · exact hf a bound'

theorem Simulates.map {g : α → β} {h : γ → δ} {w : Binder β} {b : Binder α}
    (hb : Simulates style g w b) {k : α → γ} {k' : β → δ} (hk : ∀ a, k' (g a) = h (k a)) :
    Simulates style h (w >>= fun a => pure (k' a)) (b >>= fun a => pure (k a)) :=
  hb.bind fun a => by rw [hk a]; exact simulates_pure h (k a)

/-- A run in a style fails where the run that binds every value does. -/
theorem Simulates.runIn_eq_error_iff {g : α → β} {w : Binder β} {b : Binder α}
    (h : Simulates style g w b) {bound bound' : Bindings} {e : SearchError} :
    w.runIn style (style.params bound) = (.error e, bound') ↔
      ∃ reached, b.runOn bound = (.error e, reached) ∧ bound' = style.params reached := by
  rw [h bound]
  rcases b.runOn bound with ⟨e' | a, reached⟩
  · constructor
    · rintro ⟨⟩
      exact ⟨reached, rfl, rfl⟩
    · rintro ⟨_, ⟨⟩, rfl⟩
      rfl
  · constructor
    · rintro ⟨⟩
    · rintro ⟨_, ⟨⟩, -⟩

theorem simulates_lift {x : Except SearchError γ} {g : α → β} {f' : γ → Binder β}
    {f : γ → Binder α} (hf : ∀ c, x = .ok c → Simulates style g (f' c) (f c)) :
    Simulates style g (liftM x >>= f') (liftM x >>= f) := by
  cases x with
  | error e => exact simulates_throw g e
  | ok c => exact hf c rfl

theorem simulates_mapM {g : α → β} {f' : γ → Binder β} {f : γ → Binder α}
    (h : ∀ c, Simulates style g (f' c) (f c)) (cs : List γ) :
    Simulates style (List.map g) (cs.mapM f') (cs.mapM f) := by
  induction cs with
  | nil => exact simulates_pure (List.map g) []
  | cons c cs ih =>
    rw [List.mapM_cons, List.mapM_cons]
    exact (h c).bind fun a => ih.map fun as => rfl

theorem simulates_value (v : Value) :
    Simulates style (Fragment.inStyle style) (value v) (value v) := by
  intro bound
  rw [runOn_value]
  cases h : style.mode with
  | literal =>
    rw [runIn_value_literal h]
    simp [Except.map, Fragment.inStyle, Piece.inStyle, Style.params, h]
  | parameterized =>
    rw [runIn_value_parameterized h]
    simp [Except.map, Fragment.inStyle, Piece.inStyle, Style.params, h]

theorem simulates_values (vs : List Value) :
    Simulates style (Fragment.inStyle style) (values vs) (values vs) :=
  (simulates_mapM simulates_value vs).map fun fs =>
    (Fragment.map_join (fun _ => rfl) ", " fs).symm

end Binder

end Sql

open Sql.Binder (Simulates simulates_lift simulates_mapM simulates_throw simulates_value
  simulates_values)

variable {style : Style}

namespace Operator

theorem inStyle_around (op : Operator) (f : Fragment) :
    Fragment.inStyle style (op.around f) = op.around (Fragment.inStyle style f) := by
  simp [around, Fragment.inStyle, Piece.inStyle]

theorem scalar_simulates (op : Operator) (v : Value) :
    Simulates style (Fragment.inStyle style) (op.scalar v) (op.scalar v) := by
  unfold scalar
  cases op.form with
  | pattern before after => exact simulates_value _
  | single | list => exact simulates_value v

theorem condition_simulates (op : Operator) (operand : Operand) :
    Simulates style (Fragment.inStyle style) (op.condition operand) (op.condition operand) := by
  cases operand with
  | list vs =>
    cases op with
    | isIn =>
      rw [condition_list]
      exact (simulates_values vs).map fun f => (isIn.inStyle_around f).symm
    | equal | contains | beginsWith | endsWith => exact simulates_throw _ _
  | scalar v =>
    by_cases hop : op = .isIn
    · subst hop
      exact simulates_throw _ _
    · rw [condition_scalar hop, withScalar_eq hop]
      exact (op.scalar_simulates v).map fun f => (op.inStyle_around f).symm

end Operator

theorem ColumnRef.inStyle_fragment (c : ColumnRef) :
    Fragment.inStyle style c.fragment = c.fragment :=
  Fragment.map_of_slots (Piece.onValues_inStyle style) c.slots_fragment

theorem Predicate.condition_simulates (p : Predicate) :
    Simulates style (Fragment.inStyle style) p.condition p.condition :=
  (p.operator.condition_simulates p.operand).map fun f => by
    have hcolumn : Fragment.inStyle style p.column.fragment = _ := p.column.inStyle_fragment
    rw [Fragment.inStyle] at hcolumn ⊢
    rw [Fragment.inStyle, List.map_append, hcolumn]

theorem Filter.condition_simulates (f : Filter) :
    Simulates style (Fragment.inStyle style) f.condition f.condition :=
  simulates_lift fun p _ => p.condition_simulates

theorem FilterSpec.condition_simulates (limits : Limits) (spec : FilterSpec) :
    Simulates style (Fragment.inStyle style) (spec.condition limits) (spec.condition limits) := by
  refine simulates_lift fun filter _ => simulates_lift fun operand _ => ?_
  cases operand with
  | scalar v => exact filter.condition_simulates
  | list vs => exact simulates_lift fun _ _ => filter.condition_simulates

/-- What replaces the markers of values, as a run in a style has it. -/
theorem SubqueryValues.substitution_simulates (values : SubqueryValues) :
    Simulates style (Substitution.mapPieces (Piece.inStyle style)) values.substitution
      values.substitution := by
  cases values with
  | idsFromSource source ids => exact (simulates_values ids).map fun f => rfl
  | creators ids => exact (simulates_values _).map fun f => rfl
  | bounds lower upper =>
    exact (simulates_value lower).bind fun f => (simulates_value upper).map fun f' => rfl
  | task id => exact (simulates_value _).map fun f => rfl

theorem Sql.Substitution.lacks_mapPieces (g : Piece → Piece) (table : Substitution) :
    (table.mapPieces g).lacks = table.lacks := by
  funext name
  rw [lacks, lacks, lookup_mapPieces, Option.isNone_map]

namespace QueryTemplate

/-- What changes no fixed text changes a filled template in its entries only. -/
theorem fill_mapPieces {g : Piece → Piece} (hg : ∀ text, g (.fixed text) = .fixed text)
    (t : QueryTemplate) (table : Substitution) :
    t.fill (table.mapPieces g) = (t.fill table).map (List.map g) := by
  rw [fill_eq, fill_eq, Substitution.lacks_mapPieces]
  cases (Sql.markers t.text).find? table.lacks with
  | some marker => rfl
  | none => exact congrArg Except.ok (t.map_place hg table).symm

theorem fill_simulates (t : QueryTemplate) (table : Substitution) :
    Simulates style (Fragment.inStyle style)
      (liftM (t.fill (table.mapPieces (Piece.inStyle style)))) (liftM (t.fill table)) := by
  intro bound
  rw [fill_mapPieces fun _ => rfl]
  cases t.fill table <;> rfl

theorem subquery_simulates (t : QueryTemplate) (limits : Limits) (projectId : String)
    (values : List Value) :
    Simulates style (Fragment.inStyle style) (t.subquery limits projectId values)
      (t.subquery limits projectId values) := by
  refine simulates_lift fun checked _ => checked.substitution_simulates.bind fun table => ?_
  refine (simulates_value _).bind fun project => ?_
  have hfill : Simulates style _ _ _ := t.fill_simulates (table ++ [("@@PROJECT_ID@@", project)])
  rw [Substitution.mapPieces, List.map_append] at hfill
  exact hfill

end QueryTemplate

theorem SubquerySpec.join_simulates (limits : Limits) (projectId : String) (index : Nat)
    (spec : SubquerySpec) :
    Simulates style (Join.mapPieces (Piece.inStyle style)) (spec.join limits projectId index)
      (spec.join limits projectId index) := by
  refine simulates_lift fun subquery hsubquery => ?_
  rw [QueryTemplate.render_filter (Subquery.resolve_eq_ok hsubquery).2.1]
  exact (subquery.template.subquery_simulates limits projectId subquery.values).map fun f => rfl

theorem joinSubqueries_simulates (limits : Limits) (projectId : String) (index : Nat)
    (specs : List SubquerySpec) :
    Simulates style (List.map (Join.mapPieces (Piece.inStyle style)))
      (joinSubqueries limits projectId index specs)
      (joinSubqueries limits projectId index specs) := by
  induction specs generalizing index with
  | nil => exact Sql.Binder.simulates_pure _ []
  | cons spec specs ih =>
    exact (spec.join_simulates limits projectId index).bind fun j => (ih (index + 1)).map
      fun js => rfl

namespace Plan

theorem statement_simulates (plan : Plan) :
    Simulates style (Fragment.inStyle style) (plan.mapPieces (Piece.inStyle style)).statement
      plan.statement := by
  have hentries : Simulates style (Substitution.mapPieces (Piece.inStyle style))
      (plan.mapPieces (Piece.inStyle style)).substitution plan.substitution :=
    (simulates_value _).map fun project => (plan.mapPieces_entries (fun _ => rfl) project).symm
  refine hentries.bind fun table => ?_
  refine (QueryTemplate.base.fill_simulates table).map fun sql => ?_
  rw [Fragment.inStyle, Fragment.inStyle, List.map_append, List.map_append,
    map_boundLine fun _ => rfl, map_boundLine fun _ => rfl]
  rfl

/-- Any plan has a statement, in every style. -/
theorem exists_statement (style : Style) (plan : Plan) (bound : Bindings) :
    ∃ sql, plan.statement.runIn style (style.params bound) =
      (.ok sql, style.params (bound ++ [.string plan.projectId])) := by
  have hproject : (Binder.text plan.projectId).runIn style (style.params bound) = _ :=
    simulates_value (.string plan.projectId) bound
  have hsubstitution : plan.substitution.runIn style (style.params bound) =
      (.ok (plan.entries (Fragment.inStyle style [.value bound.length (.string plan.projectId)])),
        style.params (bound ++ [.string plan.projectId])) := by
    rw [substitution, Sql.Binder.runIn_bind, hproject]
    rfl
  rw [statement, Sql.Binder.runIn_bind, hsubstitution]
  dsimp only
  rw [fill_entries]
  exact ⟨_, rfl⟩

end Plan

/-- An order adds no values. -/
theorem SearchRequest.slots_of_orderParts {request : SearchRequest} {order : OrderParts}
    (h : request.orderParts = .ok order) : ∀ f ∈ order.fragments, Fragment.slots f = [] := by
  unfold orderParts at h
  split at h
  next spec =>
    obtain ⟨order, key, -, -, rfl⟩ := OrderSpec.parts_eq_ok h
    exact fun f hf => (Order.adds_of_mem_fragments f hf).slots
  next =>
    cases h
    exact fun f hf => nomatch hf

/-- What changes values only leaves an order as it is. -/
theorem OrderParts.map_of_slots {g : Piece → Piece} (hg : Piece.OnValues g) {order : OrderParts}
    (h : ∀ f ∈ order.fragments, Fragment.slots f = []) :
    order.join.map (List.map g) = order.join ∧ order.select.map (List.map g) = order.select ∧
      order.expression.map (List.map g) = order.expression := by
  simp only [fragments, List.mem_append, Option.mem_toList] at h
  have hoption : ∀ o : Option Fragment, (∀ f, o = some f → Fragment.slots f = []) →
      o.map (List.map g) = o := by
    intro o ho
    cases o with
    | none => rfl
    | some f => exact congrArg some (Fragment.map_of_slots hg (ho f rfl))
  refine ⟨hoption _ fun f hf => h f (.inl (.inl hf)), ?_, hoption _ fun f hf => h f (.inr hf)⟩
  exact (List.map_congr_left fun f hf => Fragment.map_of_slots hg (h f (.inl (.inr hf)))).trans
    (List.map_id _)

namespace SearchRequest

theorem plan_simulates (limits : Limits) (request : SearchRequest) :
    Simulates style (Plan.mapPieces (Piece.inStyle style)) (request.plan limits)
      (request.plan limits) := by
  refine simulates_lift fun _ _ => ?_
  refine (simulates_mapM (FilterSpec.condition_simulates limits) request.filters).bind
    fun conditions => ?_
  refine (joinSubqueries_simulates limits request.projectId 0 request.subqueries).bind
    fun joins => simulates_lift fun order horder => ?_
  obtain ⟨hjoin, hselect, hexpression⟩ :=
    OrderParts.map_of_slots (Piece.onValues_inStyle style) (slots_of_orderParts horder)
  have habsences := Join.absences_mapPieces (Piece.onValues_inStyle style).fixed joins
  intro bound
  simp only [Sql.Binder.runIn_pure, Sql.Binder.runOn_pure, Except.map, Plan.mapPieces, hselect,
    hjoin, hexpression, List.map_append, habsences]
  rfl

theorem statement_simulates (limits : Limits) (request : SearchRequest) :
    Simulates style (Fragment.inStyle style) (request.statement limits)
      (request.statement limits) :=
  (request.plan_simulates limits).bind fun plan => plan.statement_simulates

/-- A request can be compiled by a run that binds every value, and written afterwards. -/
theorem compile_eq_runOn (limits : Limits) (style : Style) (request : SearchRequest) :
    request.compile limits style =
      match (request.statement limits).runOn [] with
      | (.ok f, bound) => .ok ⟨f.text style, style.params bound⟩
      | (.error e, _) => .error e := by
  have hstatement : Simulates style _ _ _ := request.statement_simulates limits
  have hsimulates := hstatement []
  rw [style.params_nil] at hsimulates
  rw [compile, hsimulates]
  rcases (request.statement limits).runOn [] with ⟨_ | f, bound⟩
  · rfl
  · simp only [Except.map, Fragment.text_inStyle]

end SearchRequest

end RecordSearch
