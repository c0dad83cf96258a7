import RecordSearch.Error
import RecordSearch.Json.Shape
import RecordSearch.Request.Basic

/-!
# Requests as JSON

The four structures of a request, read from JSON and written as compact JSON.
Filters and subqueries may spell their fields in upper case. What is absent is
written as `null`.
-/
namespace RecordSearch

open Json (Tree Field Shape Value)

def FilterSpec.shape : Shape FilterSpec where
  title := "FilterSpec"
  start := ⟨"", "", "", []⟩
  fields := [
    ⟨"target_table", ["TARGET_TABLE", "target_table"], true,
      fun t => t.asString.map fun s f => { f with targetTable := s }⟩,
    ⟨"target_column", ["TARGET_COLUMN", "target_column"], true,
      fun t => t.asString.map fun s f => { f with targetColumn := s }⟩,
    ⟨"operator", ["OPERATOR", "operator"], true,
      fun t => t.asString.map fun s f => { f with operator := s }⟩,
    ⟨"values", ["VALUES", "values"], false,
      fun t => (t.asList Tree.asValue).map fun vs f => { f with values := vs }⟩]

def SubquerySpec.shape : Shape SubquerySpec where
  title := "SubquerySpec"
  start := ⟨"", [], false⟩
  fields := [
    ⟨"query_template", ["QUERY_TEMPLATE", "query_template"], true,
      fun t => t.asString.map fun s q => { q with queryTemplate := s }⟩,
    ⟨"values", ["VALUES", "values"], false,
      fun t => (t.asList Tree.asValue).map fun vs q => { q with values := vs }⟩,
    ⟨"negation", ["NEGATION", "negation"], false,
      fun t => t.asBool.map fun b q => { q with negation := b }⟩]

def OrderSpec.shape : Shape OrderSpec where
  title := "OrderSpec"
  start := { orderBy := "" }
  fields := [
    ⟨"order_by", ["order_by"], true,
      fun t => t.asString.map fun s o => { o with orderBy := s }⟩,
    ⟨"direction", ["direction"], false,
      fun t => t.asString.map fun s o => { o with direction := s }⟩,
    ⟨"data_type", ["data_type"], false,
      fun t => (t.asOptional Tree.asString).map fun s o => { o with dataType := s }⟩]

def SearchRequest.shape : Shape SearchRequest where
  title := "SearchRequest"
  start := { projectId := "" }
  fields := [
    ⟨"project_id", ["project_id"], true,
      fun t => t.asString.map fun s r => { r with projectId := s }⟩,
    ⟨"filters", ["filters"], false,
      fun t => (t.asList FilterSpec.shape.read).map fun fs r => { r with filters := fs }⟩,
    ⟨"subqueries", ["subqueries"], false,
      fun t => (t.asList SubquerySpec.shape.read).map fun qs r => { r with subqueries := qs }⟩,
    ⟨"order", ["order"], false,
      fun t => (t.asOptional OrderSpec.shape.read).map fun o r => { r with order := o }⟩,
    ⟨"limit", ["limit"], false,
      fun t => (t.asOptional Tree.asNatural).map fun n r => { r with limit := n }⟩,
    ⟨"offset", ["offset"], false,
      fun t => (t.asOptional Tree.asNatural).map fun n r => { r with offset := n }⟩]

def SearchRequest.ofJson (text : String) : Except SearchError SearchRequest :=
  (SearchRequest.shape.readText text).mapError .json

namespace Json

/-- The rest of an object whose member values are already written. -/
def fieldsAfter : List (String × List Char) → List Char
  | [] => ['}']
  | (key, text) :: rest => ',' :: stringText key ++ ':' :: text ++ fieldsAfter rest

def objectText : List (String × List Char) → List Char
  | [] => ['{', '}']
  | (key, text) :: rest => '{' :: stringText key ++ ':' :: text ++ fieldsAfter rest

def elementsAfter : List (List Char) → List Char
  | [] => [']']
  | text :: rest => ',' :: text ++ elementsAfter rest

/-- An array whose items are already written. -/
def arrayText : List (List Char) → List Char
  | [] => ['[', ']']
  | text :: rest => '[' :: text ++ elementsAfter rest

def optionalText {α : Type} (write : α → List Char) : Option α → List Char
  | none => nullText
  | some a => write a

end Json

open Json (stringText boolText objectText arrayText optionalText)

def FilterSpec.chars (f : FilterSpec) : List Char :=
  objectText [
    ("target_table", stringText f.targetTable),
    ("target_column", stringText f.targetColumn),
    ("operator", stringText f.operator),
    ("values", arrayText (f.values.map Value.chars))]

def SubquerySpec.chars (q : SubquerySpec) : List Char :=
  objectText [
    ("query_template", stringText q.queryTemplate),
    ("values", arrayText (q.values.map Value.chars)),
    ("negation", boolText q.negation)]

def OrderSpec.chars (o : OrderSpec) : List Char :=
  objectText [
    ("order_by", stringText o.orderBy),
    ("direction", stringText o.direction),
    ("data_type", optionalText stringText o.dataType)]

def SearchRequest.chars (r : SearchRequest) : List Char :=
  objectText [
    ("project_id", stringText r.projectId),
    ("filters", arrayText (r.filters.map FilterSpec.chars)),
    ("subqueries", arrayText (r.subqueries.map SubquerySpec.chars)),
    ("order", optionalText OrderSpec.chars r.order),
    ("limit", optionalText (Nat.toDigits 10) r.limit),
    ("offset", optionalText (Nat.toDigits 10) r.offset)]

/-- A request as compact JSON, its fields in their order. -/
def SearchRequest.toJson (r : SearchRequest) : String := String.ofList r.chars

end RecordSearch
