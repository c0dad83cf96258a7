import RecordSearch.Compile

/-!
# What a request binds

The values that the statement of a request must bind, and the texts of the
client that it must spell out, read off the request as it was written. Nothing
here asks whether the request is accepted.
-/
namespace RecordSearch

open Json (Value)
open Sql (singleQuote doubleQuote)

namespace FilterSpec

def onPayload (spec : FilterSpec) : Bool :=
  spec.targetTable = "RECORD" && spec.targetColumn = "DATA"

/-- The values to compare with. On the payload, the first value is the key. -/
def operands (spec : FilterSpec) : List Value :=
  if spec.onPayload then spec.values.tail else spec.values

def payloadKeys (spec : FilterSpec) : List String :=
  if spec.onPayload then
    match spec.values with
    | .string key :: _ => [key]
    | _ => []
  else []

/-- The operands as they are bound: for a pattern, as one text each. -/
def boundValues (spec : FilterSpec) : List Value :=
  match spec.operator with
  | "CONTAINS" => spec.operands.map fun v => .string ("%" ++ v.plain ++ "%")
  | "BEGINS_WITH" => spec.operands.map fun v => .string ("" ++ v.plain ++ "%")
  | "ENDS_WITH" => spec.operands.map fun v => .string ("%" ++ v.plain ++ "")
  | _ => spec.operands

end FilterSpec

namespace SubquerySpec

/-- Whether the first value is the name of a label source. -/
def takesSource (spec : SubquerySpec) : Bool :=
  spec.queryTemplate ∈
    ["SUBQUERY_RLA_LABEL", "SUBQUERY_RLA_NO_LABEL", "SUBQUERY_RLA_INFORMATION_SOURCE"]

def source? (spec : SubquerySpec) : Option Value :=
  if spec.takesSource then spec.values.head? else none

def ownValues (spec : SubquerySpec) : List Value :=
  if spec.takesSource then spec.values.tail else spec.values

/-- How often the text of the subquery mentions its project. -/
def projectUses (spec : SubquerySpec) : Nat :=
  if spec.queryTemplate = "SUBQUERY_RLA_DIFFERENT_IS_EXTRACTION" then 2 else 1

end SubquerySpec

namespace FilterSpec

def mapOperands (g : Value → Value) (spec : FilterSpec) : FilterSpec :=
  { spec with
    values := (if spec.onPayload then spec.values.take 1 else []) ++ spec.operands.map g }

theorem onPayload_mapOperands (g : Value → Value) (spec : FilterSpec) :
    (spec.mapOperands g).onPayload = spec.onPayload := rfl

theorem operands_mapOperands (g : Value → Value) (spec : FilterSpec) :
    (spec.mapOperands g).operands = spec.operands.map g := by
  rw [operands, onPayload_mapOperands]
  split
  next hpayload =>
    rw [mapOperands, if_pos hpayload, operands, if_pos hpayload]
    cases spec.values <;> rfl
  next hpayload =>
    rw [mapOperands, if_neg hpayload, List.nil_append]

theorem payloadKeys_mapOperands (g : Value → Value) (spec : FilterSpec) :
    (spec.mapOperands g).payloadKeys = spec.payloadKeys := by
  rw [payloadKeys, onPayload_mapOperands, payloadKeys]
  split
  next hpayload =>
    rw [mapOperands, if_pos hpayload, operands, if_pos hpayload]
    cases spec.values with
    | nil => rfl
    | cons v vs => cases v <;> rfl
  next => rfl

theorem length_boundValues (spec : FilterSpec) :
    spec.boundValues.length = spec.operands.length := by
  unfold boundValues
  split
  next => exact List.length_map _
  next => exact List.length_map _
  next => exact List.length_map _
  next => rfl

end FilterSpec

namespace SubquerySpec

def mapOwnValues (g : Value → Value) (spec : SubquerySpec) : SubquerySpec :=
  { spec with values := spec.source?.toList ++ spec.ownValues.map g }

theorem takesSource_mapOwnValues (g : Value → Value) (spec : SubquerySpec) :
    (spec.mapOwnValues g).takesSource = spec.takesSource := rfl

theorem source?_mapOwnValues (g : Value → Value) (spec : SubquerySpec) :
    (spec.mapOwnValues g).source? = spec.source? := by
  rw [source?, takesSource_mapOwnValues, source?]
  split
  next htakes =>
    rw [mapOwnValues, source?, if_pos htakes, ownValues, if_pos htakes]
    cases spec.values <;> rfl
  next => rfl

theorem ownValues_mapOwnValues (g : Value → Value) (spec : SubquerySpec) :
    (spec.mapOwnValues g).ownValues = spec.ownValues.map g := by
  rw [ownValues, takesSource_mapOwnValues]
  split
  next htakes =>
    rw [mapOwnValues, source?, if_pos htakes, ownValues, if_pos htakes]
    cases spec.values <;> rfl
  next htakes =>
    rw [mapOwnValues, source?, if_neg htakes]
    rfl

end SubquerySpec

def SubquerySpec.textValues (spec : SubquerySpec) (projectId : String) : List Value :=
  if spec.queryTemplate = "SUBQUERY_RLA_NO_LABEL" then spec.ownValues ++ [.string projectId]
  else List.replicate spec.projectUses (.string projectId) ++ spec.ownValues

/-- The texts that an order spells out: a key of the payload, and a name made of it. -/
def OrderSpec.keyTexts (spec : OrderSpec) : List (Char × String) :=
  match splitOrderKey spec.orderBy with
  | ("RECORD_DATA", some key) => [(singleQuote, key), (doubleQuote, "order_" ++ key)]
  | _ => []

namespace SearchRequest

/-- Filter by filter, then subquery by subquery with the project after each, and
the project once more. -/
def boundValues (request : SearchRequest) : List Value :=
  request.filters.flatMap FilterSpec.boundValues ++
    request.subqueries.flatMap (fun q => q.ownValues ++ [.string request.projectId]) ++
    [.string request.projectId]

/-- The bound values, each with the number of its mentions in the text. -/
def boundUses (request : SearchRequest) : List (Value × Nat) :=
  request.filters.flatMap (fun f => f.boundValues.map fun v => (v, 1)) ++
    request.subqueries.flatMap (fun q =>
      q.ownValues.map (fun v => (v, 1)) ++ [(.string request.projectId, q.projectUses)]) ++
    [(.string request.projectId, 1)]

theorem boundUses_fst (request : SearchRequest) :
    request.boundUses.map Prod.fst = request.boundValues := by
  simp [boundUses, boundValues, List.map_flatMap, Function.comp_def]

/-- The bound values in the order in which the text mentions them: the subqueries
are joined before the project is asked for, and the filters come last. -/
def textValues (request : SearchRequest) : List Value :=
  request.subqueries.flatMap (fun q => q.textValues request.projectId) ++
    .string request.projectId :: request.filters.flatMap FilterSpec.boundValues

/-- The texts between quotes that are never bound, with their quotes. -/
def keyTexts (request : SearchRequest) : List (Char × String) :=
  (request.filters.flatMap fun f => f.payloadKeys.map fun key => (singleQuote, key)) ++
    (request.order.toList.flatMap OrderSpec.keyTexts)

/-- All texts of the client that a statement can hold between quotes: what is
spelled out in any case, and the bound values that are texts. -/
def clientTexts (request : SearchRequest) : List (Char × String) :=
  request.keyTexts ++ request.boundValues.filterMap fun
    | .string s => some (singleQuote, s)
    | _ => none

end SearchRequest

end RecordSearch
