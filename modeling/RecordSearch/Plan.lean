import RecordSearch.Filter
import RecordSearch.Order
import RecordSearch.Subquery

/-!
# Plans

A plan holds what goes into the slots of the base statement: conditions, joined
subqueries, the join and the item that sorting needs, and the order itself. A
request is planned filter by filter, then subquery by subquery, then its order;
the first one that fails decides the error.
-/
namespace RecordSearch

open Json (Value)
open Sql (Fragment Binder Substitution)

inductive JoinKind where
  | inner
  | left
  deriving DecidableEq, Repr

def JoinKind.text : JoinKind → String
  | .inner => "INNER JOIN"
  | .left => "LEFT JOIN"

/-- A subquery joined to the records it matches. -/
structure Join where
  kind : JoinKind
  subquery : Fragment
  aliasName : String
  deriving Repr

def Join.fragment (j : Join) : Fragment :=
  .fixed (j.kind.text ++ " (") :: j.subquery ++
    [.fixed (") " ++ j.aliasName ++ "\n    ON r.project_id = " ++ j.aliasName ++
      ".pID AND r.id = " ++ j.aliasName ++ ".rID")]

structure Plan where
  projectId : String := ""
  /-- Items selected besides the record's own. -/
  select : List Fragment := []
  joins : List Join := []
  /-- The join that sorting by an association key needs. -/
  orderJoin : Option Fragment := none
  filters : List Fragment := []
  orderBy : Option Fragment := none
  limit : Option Nat := none
  offset : Option Nat := none
  deriving Repr

namespace Plan

def substitution (plan : Plan) : Binder Substitution := do
  let project ← Binder.text plan.projectId
  return [
    ("@@SELECT_ADD@@", plan.select.flatMap fun item => .fixed ", " :: item),
    ("@@FROM_ADD@@",
      Fragment.join "\n" (plan.joins.map Join.fragment ++ plan.orderJoin.toList)),
    ("@@PROJECT_ID@@", project),
    ("@@WHERE_ADD@@", Fragment.join "\n" (plan.filters.map fun f => .fixed "AND " :: f)),
    ("@@ORDER_BY_ADD@@", match plan.orderBy with
      | some expression => .fixed "ORDER BY " :: expression
      | none => [])]

def boundLine (keyword : String) : Option Nat → Fragment
  | some n => [.fixed (keyword ++ " " ++ decimal n ++ "\n")]
  | none => []

/-- The base statement with the slots of the plan. -/
def statement (plan : Plan) : Binder Fragment := do
  let table ← plan.substitution
  let sql ← QueryTemplate.base.fill table
  return sql ++ boundLine "LIMIT" plan.limit ++ boundLine "OFFSET" plan.offset

end Plan

/-- What a template is filled with. Each kind fits only some of the templates. -/
inductive TemplateArguments where
  | filter (values : List Value) (projectId : String) (limits : Limits)
  | order (column : OrderColumn)
  | base (plan : Plan)

def OrderColumn.join (column : OrderColumn) : Except SearchError Fragment :=
  QueryTemplate.orderJoin.fill [("@@ORDER_COLUMNS@@", [.fixed column.text])]

/-- A template filled with arguments that fit it. -/
def QueryTemplate.render (t : QueryTemplate) (arguments : TemplateArguments) :
    Binder Fragment :=
  match t, arguments with
  | .base, .base plan => plan.statement
  | .orderJoin, .order column => column.join
  | t, .filter values projectId limits =>
    if t.isFilter then t.subquery limits projectId values
    else throw (.template (.wrongArguments t))
  | t, _ => throw (.template (.wrongArguments t))

/-- The condition of a filter, once its list is known to be short enough. -/
def FilterSpec.condition (limits : Limits) (spec : FilterSpec) : Binder Fragment := do
  let filter ← Filter.resolve spec
  match ← filter.operand with
  | .list vs => checkInList limits vs.length
  | .scalar _ => pure ()
  filter.condition

def subqueryAlias (index : Nat) : String := "sq_" ++ decimal index

/-- The subquery at a position, joined. A negated one is joined loosely. -/
def SubquerySpec.join (limits : Limits) (projectId : String) (index : Nat)
    (spec : SubquerySpec) : Binder Join := do
  let subquery ← Subquery.resolve spec
  let sql ← subquery.template.render (.filter subquery.values projectId limits)
  return ⟨if subquery.negation then .left else .inner, sql, subqueryAlias index⟩

def joinSubqueries (limits : Limits) (projectId : String) :
    Nat → List SubquerySpec → Binder (List Join)
  | _, [] => return []
  | index, spec :: rest => do
    let join ← spec.join limits projectId index
    let joins ← joinSubqueries limits projectId (index + 1) rest
    return join :: joins

/-- A loosely joined subquery keeps the records that it does not match. -/
def Join.absence? (j : Join) : Option Fragment :=
  match j.kind with
  | .left => some [.fixed (j.aliasName ++ ".rID IS NULL")]
  | .inner => none

/-- What an order adds to a plan: a join, selected items, and the expression. -/
structure OrderParts where
  join : Option Fragment := none
  select : List Fragment := []
  expression : Option Fragment := none
  deriving Repr

def OrderSpec.parts (spec : OrderSpec) : Except SearchError OrderParts := do
  let order ← Order.resolve spec
  let column ← order.key.joined order.direction
  let join ← column.mapM OrderColumn.join
  let selected ← order.selected
  let expression ← order.expression
  return {
    join
    select := (column.map fun c => Fragment.ofText c.aliasName).toList ++ selected.toList
    expression := some expression }

/-- Without an order nothing is added. -/
def SearchRequest.orderParts (request : SearchRequest) : Except SearchError OrderParts :=
  match request.order with
  | some spec => spec.parts
  | none => .ok {}

def SearchRequest.plan (request : SearchRequest) (limits : Limits) : Binder Plan := do
  checkRequest limits request
  let conditions ← request.filters.mapM (FilterSpec.condition limits)
  let joins ← joinSubqueries limits request.projectId 0 request.subqueries
  let order ← request.orderParts
  return {
    projectId := request.projectId
    select := order.select
    joins
    orderJoin := order.join
    filters := conditions ++ joins.filterMap Join.absence?
    orderBy := order.expression
    limit := request.limit
    offset := request.offset }

end RecordSearch
