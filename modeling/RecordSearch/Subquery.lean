import RecordSearch.Request.Check
import RecordSearch.Sql.Binder
import RecordSearch.Sql.Template

/-!
# Association filters

A filter on label associations is a subquery made from one of the filter
templates. Each template asks for values of its own shape, and each of its
markers gets a part of them. The values are checked before any is bound, and the
project is bound last.
-/
namespace RecordSearch

open Json (Value)
open Sql (Fragment Binder Substitution)

structure Subquery where
  template : QueryTemplate
  values : List Value
  negation : Bool
  deriving Repr

def Subquery.resolve (spec : SubquerySpec) : Except SearchError Subquery := do
  let template : QueryTemplate ← Named.resolve spec.queryTemplate
  if template.isFilter then return ⟨template, spec.values, spec.negation⟩
  else throw (.unknown .filterTemplate spec.queryTemplate)

/-- What the values of a filter template are, once they have its shape. -/
inductive SubqueryValues where
  | idsFromSource (source : LabelSource) (ids : List Value)
  | creators (ids : List String)
  | bounds (lower upper : Value)
  | task (id : String)
  deriving Repr

namespace QueryTemplate

/-- A label source by name, then at least one scalar. -/
def sourceAndIds (t : QueryTemplate) (limits : Limits) :
    List Value → Except SearchError SubqueryValues
  | .string source :: id :: ids => do
    let source ← Named.resolve source
    requireScalars (id :: ids)
    checkInList limits (id :: ids).length
    return .idsFromSource source (id :: ids)
  | _ => .error (.malformed (.sourceAndIdsWanted t))

def creators (t : QueryTemplate) (limits : Limits) (values : List Value) :
    Except SearchError SubqueryValues := do
  let ids ← requireStrings "creator ids" values
  if ids.isEmpty then throw (.malformed (.creatorWanted t))
  checkInList limits ids.length
  return .creators ids

/-- Two strings or two numbers. -/
def confidenceBounds (t : QueryTemplate) : List Value → Except SearchError SubqueryValues
  | [.string lower, .string upper] => .ok (.bounds (.string lower) (.string upper))
  | [.number lower, .number upper] => .ok (.bounds (.number lower) (.number upper))
  | values => .error (.malformed (.boundsWanted t values))

def taskId (t : QueryTemplate) : List Value → Except SearchError SubqueryValues
  | [.string id] => .ok (.task id)
  | _ => .error (.malformed (.taskWanted t))

/-- The values of a filter, checked against the shape that its template asks for. -/
def filterValues (t : QueryTemplate) (limits : Limits) (values : List Value) :
    Except SearchError SubqueryValues :=
  match t with
  | .label | .noLabel | .informationSource => t.sourceAndIds limits values
  | .createdBy => t.creators limits values
  | .confidence | .callbackConfidence => t.confidenceBounds values
  | .differentClassification | .differentExtraction => t.taskId values
  | .base | .orderJoin => .error (.template (.notFilter t))

end QueryTemplate

/-- What replaces the markers that stand for the values. -/
def SubqueryValues.substitution : SubqueryValues → Binder Substitution
  | .idsFromSource source ids => do
    let ids ← Binder.values ids
    return [("@@SOURCE_TYPE@@", [.fixed (Named.name source)]), ("@@IN_VALUES@@", ids)]
  | .creators ids => do
    let ids ← Binder.values (ids.map Value.string)
    return [("@@IN_VALUES@@", ids)]
  | .bounds lower upper => do
    let lower ← Binder.value lower
    let upper ← Binder.value upper
    return [("@@VALUE1@@", lower), ("@@VALUE2@@", upper)]
  | .task id => do
    let id ← Binder.text id
    return [("@@LABELING_TASK_ID@@", id)]

/-- A template with its markers replaced. Every marker must be given. -/
def QueryTemplate.fill (t : QueryTemplate) (table : Substitution) :
    Except SearchError Fragment :=
  match (Sql.markers t.text).find? fun m => !(table.any fun entry => entry.1 = m) with
  | some marker => .error (.template (.unresolved t marker))
  | none =>
    match Sql.substitute table t.text with
    | .ok f => .ok f
    | .error marker => .error (.template (.noValue marker))

def QueryTemplate.subquery (t : QueryTemplate) (limits : Limits) (projectId : String)
    (values : List Value) : Binder Fragment := do
  let values ← t.filterValues limits values
  let table ← values.substitution
  let project ← Binder.text projectId
  t.fill (table ++ [("@@PROJECT_ID@@", project)])

end RecordSearch
