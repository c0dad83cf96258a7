import RecordSearch.Error
import RecordSearch.Request.Basic
import RecordSearch.Yaml.Schema

/-!
# Requests as YAML

The four structures of a request, read from mappings. Filters and subqueries may
spell their fields in upper case. No field may be given twice and no other key
may occur. A null stands for an absent option, but for a text it is the text that
was written. A list that is left out is empty.
-/
namespace RecordSearch

open Yaml (Node)

namespace Yaml

/-- A field of a structure: its keys, whether it must be there, how it is read. -/
structure Field (α : Type) where
  spellings : List String
  required : Bool
  read : Node → Option (α → α)

def readFields {α : Type} (fields : List (Field α)) :
    List (List String) → α → List (Node × Node) → Option α
  | seen, a, [] =>
    if fields.all fun f => !f.required || seen.contains f.spellings then some a else none
  | seen, a, (k, n) :: rest => do
    let key ← k.text?
    let f ← fields.find? fun f => f.spellings.contains key
    if seen.contains f.spellings then none
    else
      let set ← f.read n
      readFields fields (f.spellings :: seen) (set a) rest

def readStructure {α : Type} (start : α) (fields : List (Field α)) : Node → Option α
  | .mapping pairs => readFields fields [] start pairs
  | _ => none

end Yaml

def FilterSpec.ofNode : Node → Option FilterSpec :=
  Yaml.readStructure ⟨"", "", "", []⟩ [
    ⟨["TARGET_TABLE", "target_table"], true,
      fun n => n.text?.map fun s f => { f with targetTable := s }⟩,
    ⟨["TARGET_COLUMN", "target_column"], true,
      fun n => n.text?.map fun s f => { f with targetColumn := s }⟩,
    ⟨["OPERATOR", "operator"], true,
      fun n => n.text?.map fun s f => { f with operator := s }⟩,
    ⟨["VALUES", "values"], false,
      fun n => (n.asList Node.value).map fun vs f => { f with values := vs }⟩]

def SubquerySpec.ofNode : Node → Option SubquerySpec :=
  Yaml.readStructure ⟨"", [], false⟩ [
    ⟨["QUERY_TEMPLATE", "query_template"], true,
      fun n => n.text?.map fun s q => { q with queryTemplate := s }⟩,
    ⟨["VALUES", "values"], false,
      fun n => (n.asList Node.value).map fun vs q => { q with values := vs }⟩,
    ⟨["NEGATION", "negation"], false,
      fun n => n.asBool.map fun b q => { q with negation := b }⟩]

def OrderSpec.ofNode : Node → Option OrderSpec :=
  Yaml.readStructure { orderBy := "" } [
    ⟨["order_by"], true, fun n => n.text?.map fun s o => { o with orderBy := s }⟩,
    ⟨["direction"], false, fun n => n.text?.map fun s o => { o with direction := s }⟩,
    ⟨["data_type"], false,
      fun n => (n.asOptional Node.text?).map fun s o => { o with dataType := s }⟩]

def SearchRequest.ofNode : Node → Option SearchRequest :=
  Yaml.readStructure { projectId := "" } [
    ⟨["project_id"], true, fun n => n.text?.map fun s r => { r with projectId := s }⟩,
    ⟨["filters"], false,
      fun n => (n.asList FilterSpec.ofNode).map fun fs r => { r with filters := fs }⟩,
    ⟨["subqueries"], false,
      fun n => (n.asList SubquerySpec.ofNode).map fun qs r => { r with subqueries := qs }⟩,
    ⟨["order"], false,
      fun n => (n.asOptional OrderSpec.ofNode).map fun o r => { r with order := o }⟩,
    ⟨["limit"], false,
      fun n => (n.asOptional Node.asNatural).map fun i r => { r with limit := i }⟩,
    ⟨["offset"], false,
      fun n => (n.asOptional Node.asNatural).map fun i r => { r with offset := i }⟩]

def SearchRequest.ofYaml (text : String) : Except SearchError SearchRequest :=
  match (Yaml.Node.ofText text).bind SearchRequest.ofNode with
  | some request => .ok request
  | none => .error .yaml

end RecordSearch
