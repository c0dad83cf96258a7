import RecordSearch.Request.Basic
import RecordSearch.Sql.Binder

/-!
# Ordering

Keys on records sort by a column or by an attribute of the payload. Keys on
associations sort by an aggregate over all associations of a record, which is
joined in: the least value for ascending order, the greatest for descending.
-/
namespace RecordSearch

open Sql (Fragment)

structure Order where
  key : OrderKey
  /-- The payload key of `RECORD_DATA`. -/
  payloadKey : Option String
  direction : SortDirection
  dataType : DataType
  deriving DecidableEq, Repr

/-- The character between an order key and a payload key. -/
def orderSeparator : Char := '@'

/-- The text before the first separator, and the text after it up to the second.
Without a separator there is no second text. -/
def splitOrderKey (orderBy : String) : String × Option String :=
  let before := orderBy.toList.takeWhile (· ≠ orderSeparator)
  match orderBy.toList.dropWhile (· ≠ orderSeparator) with
  | [] => (String.ofList before, none)
  | _ :: rest =>
    (String.ofList before, some (String.ofList (rest.takeWhile (· ≠ orderSeparator))))

namespace Order

/-- Only `RECORD_DATA` takes a payload key, and it needs one. -/
def checkKey (orderBy : String) (key : OrderKey) (payloadKey : Option String) :
    Except SearchError (Option String) :=
  match key, payloadKey with
  | .recordData, some k =>
    if k.isEmpty then .error (.malformed (.orderKeyIncomplete orderBy)) else .ok (some k)
  | .recordData, none => .error (.malformed (.orderKeyIncomplete orderBy))
  | _, some _ => .error (.malformed (.orderKeyOverfull orderBy))
  | _, none => .ok none

/-- The key is looked up first, then its payload key is checked, then the names
of type and direction are looked up. -/
def resolve (spec : OrderSpec) : Except SearchError Order := do
  let (name, rest) := splitOrderKey spec.orderBy
  let key ← Named.resolve name
  let payloadKey ← checkKey spec.orderBy key rest
  let dataType ← match spec.dataType with
    | some name => Named.resolve name
    | none => .ok DataType.undeclared
  let direction ← Named.resolve spec.direction
  return ⟨key, payloadKey, direction, dataType⟩

end Order

/-- The aggregate that the join for sorting selects. -/
structure OrderColumn where
  /-- The item selected inside the join. -/
  text : String
  /-- The name that the statement sorts on. -/
  aliasName : String
  deriving DecidableEq, Repr

def OrderKey.associationColumn (key : OrderKey) : Except SearchError (Column × String) := do
  let column ← key.column
  let name ← TargetTable.association.columnName column
  return (column, name)

/-- The aggregate to join in; none for keys on the record itself. -/
def OrderKey.joined (key : OrderKey) (direction : SortDirection) :
    Except SearchError (Option OrderColumn) :=
  match key.table with
  | .record => .ok none
  | .association => do
    let (column, name) ← key.associationColumn
    let aliasName := direction.aggregate ++ "_" ++ name
    let expression := if column = .confidence then confidenceExpression else name
    return some ⟨direction.aggregate ++ "(" ++ expression ++ ") " ++ aliasName, aliasName⟩

namespace Order

def requirePayloadKey (order : Order) : Except SearchError String :=
  match order.payloadKey with
  | some k => .ok k
  | none => .error (.malformed (.orderKeyWithoutPayload order.key))

def payloadAlias (payloadKey : String) : Fragment := [.ident ("order_" ++ payloadKey)]

def selected (order : Order) : Except SearchError (Option Fragment) :=
  if order.key = .recordData then do
    let k ← order.requirePayloadKey
    let extracted : Fragment := [.fixed "r.\"data\" ->> ", .key k]
    let item : Fragment := match order.dataType.cast? with
      | some type => .fixed "CAST(" :: extracted ++ [.fixed (" AS " ++ type ++ ")")]
      | none => extracted
    return some (item ++ .fixed " " :: payloadAlias k)
  else .ok none

def target (order : Order) : Except SearchError Fragment :=
  if order.key = .recordData then do
    let k ← order.requirePayloadKey
    return payloadAlias k
  else match order.key.table with
    | .record => do
      let column ← order.key.column
      let name ← TargetTable.record.columnName column
      return [.fixed (TargetTable.record.aliasName ++ "." ++ name)]
    | .association => do
      let (_, name) ← order.key.associationColumn
      return [.fixed (order.direction.aggregate ++ "_" ++ name)]

def expression (order : Order) : Except SearchError Fragment := do
  let target ← order.target
  return target ++
    [.fixed (" " ++ Named.name order.direction ++ " " ++ order.direction.nulls)]

end Order

end RecordSearch
