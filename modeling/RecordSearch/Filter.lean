import RecordSearch.Request.Check
import RecordSearch.Sql.Binder
import RecordSearch.Sql.Template

/-!
# Column filters

A filter names a column that exists on its table. A filter on the payload takes
a key as its first value; what is left of the values is the operand, one scalar
or, for `IN`, a list of them.
-/
namespace RecordSearch

open Json (Value)
open Sql (Fragment Binder)

structure Filter where
  table : TargetTable
  column : Column
  operator : Operator
  values : List Value
  deriving Repr

inductive Operand where
  | scalar (v : Value)
  | list (vs : List Value)
  deriving Repr

/-- A column as a condition refers to it: as such, or a key of its payload. -/
inductive ColumnRef where
  | physical (aliasName column : String)
  | payload (aliasName column key : String)
  deriving DecidableEq, Repr

structure Predicate where
  column : ColumnRef
  operator : Operator
  operand : Operand
  deriving Repr

namespace Filter

/-- The names are looked up in the order table, column, operator; then the
table must have the column. -/
def resolve (spec : FilterSpec) : Except SearchError Filter := do
  let table ← Named.resolve spec.targetTable
  let column ← Named.resolve spec.targetColumn
  let operator ← Named.resolve spec.operator
  let _ ← table.columnName column
  return ⟨table, column, operator, spec.values⟩

def onPayload (f : Filter) : Bool := f.table = .record && f.column = .data

/-- The key of a filter on the payload, which must be a text that is not empty. -/
def payloadKey (f : Filter) : Except SearchError (Option String) :=
  if f.onPayload then
    match f.values with
    | .string key :: _ =>
      if key.isEmpty then .error (.malformed .noPayloadKey) else .ok (some key)
    | _ => .error (.malformed .noPayloadKey)
  else .ok none

def operandValues (f : Filter) : List Value :=
  if f.onPayload then f.values.tail else f.values

def operand (f : Filter) : Except SearchError Operand := do
  let _ ← f.payloadKey
  let vs := f.operandValues
  requireScalars vs
  match f.operator, vs with
  | .isIn, [] => .error (.malformed .emptyInList)
  | .isIn, vs => .ok (.list vs)
  | _, [v] => .ok (.scalar v)
  | op, vs => .error (.malformed (.operandCount op f.table f.column vs.length))

def columnRef (f : Filter) : Except SearchError ColumnRef := do
  let column ← f.table.columnName f.column
  match ← f.payloadKey with
  | some key => return .payload f.table.aliasName column key
  | none => return .physical f.table.aliasName column

def predicate (f : Filter) : Except SearchError Predicate := do
  let column ← f.columnRef
  let operand ← f.operand
  return ⟨column, f.operator, operand⟩

end Filter

/-- A key of the payload is read as text. -/
def ColumnRef.fragment : ColumnRef → Fragment
  | .physical aliasName column => [.fixed (aliasName ++ "." ++ column)]
  | .payload aliasName column key =>
    [.fixed (aliasName ++ ".\"" ++ column ++ "\" ->> "), .key key, .fixed "::TEXT"]

namespace Operator

/-- A single operand in the place of its marker. Where the template has quotes
around the marker, they and the text between them go into the operand. -/
def withScalar (op : Operator) (v : Value) : Binder Fragment :=
  match Sql.cutFirst "@@VALUE@@".toList op.template.toList with
  | none => throw (.template (.noSlot op))
  | some (head, tail) =>
    if op.quotesOperand then
      match Sql.cutLast Sql.singleQuote head, Sql.cutFirst [Sql.singleQuote] tail with
      | some (head, before), some (after, tail) => do
        let value ← Binder.pattern (String.ofList before) v (String.ofList after)
        return .fixed (String.ofList head) :: value ++ [.fixed (String.ofList tail)]
      | _, _ => throw (.template (.notQuoted op))
    else do
      let value ← Binder.value v
      return .fixed (String.ofList head) :: value ++ [.fixed (String.ofList tail)]

def condition (op : Operator) (operand : Operand) : Binder Fragment :=
  match op, operand with
  | .isIn, .list vs => do
    let values ← Binder.values vs
    return Sql.replaceAll "@@VALUES@@" values op.template
  | .isIn, .scalar _ => Binder.fail .listWanted
  | _, .list _ => Binder.fail (.singleWanted op)
  | _, .scalar v => op.withScalar v

end Operator

def Predicate.condition (p : Predicate) : Binder Fragment := do
  let value ← p.operator.condition p.operand
  return p.column.fragment ++ value

/-- The condition of a filter. Nothing is bound before the filter is known to be
well formed. -/
def Filter.condition (f : Filter) : Binder Fragment := do
  let p ← f.predicate
  p.condition

end RecordSearch
