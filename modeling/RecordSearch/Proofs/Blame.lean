import RecordSearch.Proofs.Accepted

/-!
# Failures blame the request

Every check that a request goes through fails only with an error that names what
the request got wrong. The faults of templates do not occur: each template has a
place for what its operator or its values are, and an entry for each of its markers.
-/
namespace RecordSearch

open Json (Value)
open Sql (Bindings)
open SearchError (IsUnknown IsMalformed)

/-- If there is an error, it blames the request. -/
def BlamesRequest {α : Type} (x : Except SearchError α) : Prop :=
  ∀ e, x = .error e → e.isRequestError = true

variable {α β : Type}

namespace BlamesRequest

variable {x : Except SearchError α}

/-- Names that are not in the catalog and values that do not fit are up to the request. -/
theorem of_unknown (h : FailsOnly IsUnknown x) : BlamesRequest x := by
  refine h.mono fun e he => ?_
  obtain ⟨kind, name, rfl⟩ := he
  rfl

theorem of_malformed (h : FailsOnly IsMalformed x) : BlamesRequest x := by
  refine h.mono fun e he => ?_
  obtain ⟨cause, rfl⟩ := he
  rfl

theorem ok (a : α) : BlamesRequest (.ok a) := FailsOnly.ok a

theorem unknown (kind : NameKind) (name : String) :
    BlamesRequest (.error (.unknown kind name) : Except SearchError α) :=
  of_unknown (.error ⟨kind, name, rfl⟩)

theorem malformed (cause : MalformedValues) :
    BlamesRequest (.error (.malformed cause) : Except SearchError α) :=
  of_malformed (.error ⟨cause, rfl⟩)

theorem bind {f : α → Except SearchError β} (hx : BlamesRequest x)
    (hf : ∀ a, x = .ok a → BlamesRequest (f a)) : BlamesRequest (x >>= f) := FailsOnly.bind hx hf

theorem map (hx : BlamesRequest x) (f : α → β) : BlamesRequest (x.map f) := FailsOnly.map hx f

theorem mapM {f : α → Except SearchError β} (hf : ∀ x, BlamesRequest (f x)) (xs : List α) :
    BlamesRequest (xs.mapM f) := FailsOnly.mapM hf xs

end BlamesRequest

open BlamesRequest (ok unknown malformed of_unknown of_malformed)

namespace Filter

theorem blames_columnRef (f : Filter) : BlamesRequest f.columnRef := by
  refine (of_unknown (f.table.columnName_fails f.column)).bind fun column _ => ?_
  refine (of_malformed f.payloadKey_fails).bind fun key _ => ?_
  cases key with
  | some key => exact ok _
  | none => exact ok _

theorem blames_predicate (f : Filter) : BlamesRequest f.predicate := by
  refine f.blames_columnRef.bind fun column _ => ?_
  exact (of_malformed f.operand_fails).bind fun operand _ => ok _

end Filter

theorem FilterSpec.blames_check (limits : Limits) (spec : FilterSpec) :
    BlamesRequest (spec.check limits) := by
  refine (of_unknown (Filter.resolve_fails spec)).bind fun f _ => ?_
  refine (of_malformed f.operand_fails).bind fun operand _ => ?_
  exact (of_malformed (operand.checkLength_fails limits)).bind fun _ _ => f.blames_predicate

namespace QueryTemplate

theorem blames_sourceAndIds (t : QueryTemplate) (limits : Limits) (vs : List Value) :
    BlamesRequest (t.sourceAndIds limits vs) := by
  unfold sourceAndIds
  split
  next source id ids =>
    refine (of_unknown (Named.resolve_fails source)).bind fun source _ => ?_
    refine (of_malformed (requireScalars_fails _)).bind fun _ _ => ?_
    exact (of_malformed (checkInList_fails limits _)).bind fun _ _ => ok _
  next => exact malformed _

theorem blames_creators (t : QueryTemplate) (limits : Limits) (vs : List Value) :
    BlamesRequest (t.creators limits vs) := by
  refine (of_malformed (requireStrings_fails _ vs)).bind fun ids _ => ?_
  split
  next => exact malformed _
  next => exact (of_malformed (checkInList_fails limits _)).bind fun _ _ => ok _

theorem blames_confidenceBounds (t : QueryTemplate) (vs : List Value) :
    BlamesRequest (t.confidenceBounds vs) := by
  unfold confidenceBounds
  split
  next => exact ok _
  next => exact ok _
  next => exact malformed _

theorem blames_taskId (t : QueryTemplate) (vs : List Value) : BlamesRequest (t.taskId vs) := by
  unfold taskId
  split
  next => exact ok _
  next => exact malformed _

/-- Of the templates, only those that are no filters have no values to ask for. -/
theorem blames_filterValues {t : QueryTemplate} (h : t.isFilter = true) (limits : Limits)
    (vs : List Value) : BlamesRequest (t.filterValues limits vs) := by
  cases t with
  | base | orderJoin => cases h
  | label | noLabel | informationSource => exact blames_sourceAndIds _ limits vs
  | createdBy => exact blames_creators _ limits vs
  | confidence | callbackConfidence => exact blames_confidenceBounds _ vs
  | differentClassification | differentExtraction => exact blames_taskId _ vs

end QueryTemplate

theorem Subquery.blames_resolve (spec : SubquerySpec) : BlamesRequest (Subquery.resolve spec) := by
  refine (of_unknown (Named.resolve_fails _)).bind fun template _ => ?_
  split
  next => exact ok _
  next => exact unknown _ _

theorem SubquerySpec.blames_check (limits : Limits) (spec : SubquerySpec) :
    BlamesRequest (spec.check limits) := by
  refine (Subquery.blames_resolve spec).bind fun q hresolve => ?_
  obtain ⟨-, hfilter, -⟩ := Subquery.resolve_eq_ok hresolve
  exact (QueryTemplate.blames_filterValues hfilter limits q.values).bind fun _ _ => ok _

theorem OrderKey.blames_column (key : OrderKey) : BlamesRequest key.column := by
  unfold OrderKey.column
  split
  next => exact ok _
  next => exact unknown _ _

theorem OrderKey.blames_associationColumn (key : OrderKey) :
    BlamesRequest key.associationColumn := by
  refine key.blames_column.bind fun column _ => ?_
  exact (of_unknown (TargetTable.association.columnName_fails column)).bind fun _ _ => ok _

theorem OrderKey.blames_joined (key : OrderKey) (direction : SortDirection) :
    BlamesRequest (key.joined direction) := by
  unfold OrderKey.joined
  split
  next => exact ok _
  next => exact key.blames_associationColumn.bind fun _ _ => ok _

namespace Order

theorem blames_checkKey (orderBy : String) (key : OrderKey) (payloadKey : Option String) :
    BlamesRequest (checkKey orderBy key payloadKey) := by
  unfold checkKey
  split
  next k =>
    split
    next => exact malformed _
    next => exact ok _
  next => exact malformed _
  next => exact malformed _
  next => exact ok _

theorem blames_resolve (spec : OrderSpec) : BlamesRequest (resolve spec) := by
  have htype : BlamesRequest (DataType.declared spec.dataType) := by
    cases spec.dataType with
    | none => exact ok _
    | some name => exact of_unknown (Named.resolve_fails name)
  rw [resolve_eq]
  refine (of_unknown (Named.resolve_fails _)).bind fun key _ => ?_
  refine (blames_checkKey _ key _).bind fun payloadKey _ => ?_
  refine htype.bind fun dataType _ => ?_
  exact (of_unknown (Named.resolve_fails _)).bind fun direction _ => ok _

theorem blames_requirePayloadKey (order : Order) : BlamesRequest order.requirePayloadKey := by
  unfold requirePayloadKey
  split
  next => exact ok _
  next => exact malformed _

theorem blames_selected (order : Order) : BlamesRequest order.selected := by
  unfold selected
  split
  next => exact order.blames_requirePayloadKey.bind fun _ _ => ok _
  next => exact ok _

theorem blames_target (order : Order) : BlamesRequest order.target := by
  unfold target
  split
  next => exact order.blames_requirePayloadKey.bind fun _ _ => ok _
  next =>
    split
    next =>
      refine order.key.blames_column.bind fun column _ => ?_
      exact (of_unknown (TargetTable.record.columnName_fails column)).bind fun _ _ => ok _
    next => exact order.key.blames_associationColumn.bind fun _ _ => ok _

theorem blames_expression (order : Order) : BlamesRequest order.expression :=
  order.blames_target.bind fun _ _ => ok _

end Order

theorem OrderSpec.blames_parts (spec : OrderSpec) : BlamesRequest spec.parts := by
  refine (Order.blames_resolve spec).bind fun order _ => ?_
  refine (order.key.blames_joined order.direction).bind fun column _ => ?_
  have hjoin : BlamesRequest (column.mapM OrderColumn.join) := by
    cases column with
    | none => exact ok none
    | some column =>
      rw [Option.mapM_some, column.join_eq]
      exact ok _
  refine hjoin.bind fun join _ => ?_
  refine order.blames_selected.bind fun selected _ => ?_
  exact order.blames_expression.bind fun expression _ => ok _

theorem SearchRequest.blames_check (limits : Limits) (request : SearchRequest) :
    BlamesRequest (request.check limits) := by
  have horder : BlamesRequest request.orderParts := by
    unfold orderParts
    split
    next spec _ => exact spec.blames_parts
    next => exact ok _
  refine (of_malformed (checkRequest_fails limits request)).bind fun _ _ => ?_
  refine (BlamesRequest.mapM (FilterSpec.blames_check limits) _).bind fun predicates _ => ?_
  refine (BlamesRequest.mapM (SubquerySpec.blames_check limits) _).bind fun associations _ => ?_
  exact horder.bind fun order _ => ok _

/-- A filter template with any values, on any bindings: what does not fit are the values. -/
theorem QueryTemplate.blames_render {t : QueryTemplate} (h : t.isFilter = true)
    (values : List Value) (projectId : String) (limits : Limits) (bound : Bindings) :
    BlamesRequest ((t.render (.filter values projectId limits)).runOn bound).1 := by
  have hblames := blames_filterValues h limits values
  have hperforms := t.subquery_performs limits projectId values false
  rw [render_filter h]
  cases hvalues : t.filterValues limits values with
  | error e =>
    rw [hvalues] at hblames hperforms
    rw [hperforms bound]
    intro e' he
    cases he
    exact hblames e rfl
  | ok checked =>
    rw [hvalues] at hperforms
    rw [hperforms bound]
    exact ok _

namespace Config

/-- Whatever a request holds, it is compiled or it is to blame, and so are the values
that a filter template is rendered with. -/
theorem build_blames_request (config : Config) (dialect : Sql.Dialect)
    (request : SearchRequest) :
    BlamesRequest (config.build dialect request) ∧
    BlamesRequest (config.buildSql request) ∧
    ∀ (t : QueryTemplate) (values : List Value) (projectId : String) (limits : Limits)
      (bound : Bindings), t.isFilter = true →
        BlamesRequest ((t.render (.filter values projectId limits)).runOn bound).1 := by
  have hcheck := request.blames_check config.limits
  refine ⟨?_, ?_, fun t values projectId limits bound h => t.blames_render h values projectId
    limits bound⟩
  · rw [build_eq]
    exact hcheck.map _
  · rw [buildSql, SearchRequest.compile_eq]
    exact (hcheck.map _).map CompiledSearch.sql

/-- A label source made of a marker is looked up as a name, and is to blame. -/
theorem build_blames_marker :
    QueryTemplate.label.isFilter = true ∧
      ((QueryTemplate.label.render
        (.filter [.string "@@IN_VALUES@@", .string "l1"] "@@PROJECT_ID@@" {})).runOn []).1 =
          .error (.unknown .labelSource "@@IN_VALUES@@") ∧
      (SearchError.unknown .labelSource "@@IN_VALUES@@").isRequestError = true := by
  have hrender := (build_blames_request {} .postgres { projectId := "p" }).2.2
    .label [.string "@@IN_VALUES@@", .string "l1"] "@@PROJECT_ID@@" {} [] rfl
  exact ⟨rfl, rfl, hrender _ rfl⟩

end Config

end RecordSearch
