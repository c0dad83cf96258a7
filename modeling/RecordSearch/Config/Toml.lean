import RecordSearch.Compile
import RecordSearch.Toml.Reader

/-!
# Settings as TOML

The settings are two tables, `render` and `validation`. Every setting has a
default and unknown keys are passed over. A section may be given as an array of
its settings in their order, and a date in its place leaves it at its defaults.
-/
namespace RecordSearch

open Toml (Item Table)

namespace Toml

def Item.isEmpty : Item → Bool
  | .array items => items.isEmpty
  | .inline entries => entries.isEmpty
  | .table _ entries => entries.isEmpty
  | .tables ts => ts.isEmpty
  | .string _ | .integer _ | .real | .boolean _ | .dateTime => false

/-- A choice by name: a string, or the only key of a table, over an empty container. -/
def Item.choice {α : Type} (ofName? : String → Option α) : Item → Option α
  | .string s => ofName? s
  | .inline [(key, item)] => if item.isEmpty then ofName? key else none
  | .table _ [(key, item)] => if item.isEmpty then ofName? key else none
  | _ => none

def Item.natural : Item → Option Nat
  | .integer (.ofNat n) => some n
  | _ => none

structure Setting (α : Type) where
  key : String
  read : Item → Option (α → α)

def readEntriesAs {α : Type} (settings : List (Setting α)) : α → Table → Option α
  | a, [] => some a
  | a, (key, item) :: rest =>
    match settings.find? fun s => s.key = key with
    | none => readEntriesAs settings a rest
    | some s => do
      let set ← s.read item
      readEntriesAs settings (set a) rest

def readItemsAs {α : Type} : List (Setting α) → α → List Item → Option α
  | s :: settings, a, item :: rest => do
    let set ← s.read item
    readItemsAs settings (set a) rest
  | _, a, _ => some a

def Item.section {α : Type} (settings : List (Setting α)) (start : α) : Item → Option α
  | .table _ entries => readEntriesAs settings start entries
  | .inline entries => readEntriesAs settings start entries
  | .array items => readItemsAs settings start items
  | .tables ts => readItemsAs settings start (ts.map (Item.table .headed))
  | .dateTime => some start
  | .string _ | .integer _ | .real | .boolean _ => none

end Toml

namespace Config

def renderSettings : List (Toml.Setting Config) := [
  ⟨"mode", fun i => (i.choice Sql.RenderMode.ofName?).map fun m c => { c with mode := m }⟩,
  ⟨"quoting", fun i => (i.choice Sql.Quoting.ofName?).map fun q c => { c with quoting := q }⟩]

def validationSettings : List (Toml.Setting Limits) := [
  ⟨"max_filters", fun i => i.natural.map fun n l => { l with maxFilters := n }⟩,
  ⟨"max_in_values", fun i => i.natural.map fun n l => { l with maxInValues := n }⟩]

def sections : List (Toml.Setting Config) := [
  ⟨"render", fun i => (i.section renderSettings {}).map fun r c =>
    { c with mode := r.mode, quoting := r.quoting }⟩,
  ⟨"validation", fun i => (i.section validationSettings {}).map fun l c =>
    { c with limits := l }⟩]

/-- The settings that a TOML text writes. -/
def ofToml (text : String) : Except SearchError Config :=
  match (Table.ofText text).bind (Toml.readEntriesAs sections {}) with
  | some config => .ok config
  | none => .error (.config .parse)

end Config

end RecordSearch
