/-!
# Names

Clients write tables, columns, operators and so on by name. Each kind of name
is a finite type with a list of its members in their declared order, and a name
for each; reading a name gives back the member that bears it.
-/
namespace RecordSearch

/-- What a name stands for, where one is not known. -/
inductive NameKind where
  | operator
  | targetTable
  | column
  | orderKey
  | queryTemplate
  | labelSource
  | dataType
  | sortDirection
  | orderColumn
  | filterTemplate
  deriving DecidableEq, Repr

def NameKind.text : NameKind → String
  | .operator => "operator"
  | .targetTable => "target table"
  | .column => "column"
  | .orderKey => "order key"
  | .queryTemplate => "query template"
  | .labelSource => "label source"
  | .dataType => "data type"
  | .sortDirection => "sort direction"
  | .orderColumn => "order column"
  | .filterTemplate => "filter template"

/-- A finite type of named things. No two of them bear the same name. -/
class Named (α : Type) where
  kind : NameKind
  all : List α
  name : α → String
  find_name : ∀ a : α, all.find? (fun b => name b = name a) = some a

namespace Named

variable {α : Type} [Named α]

/-- The member that bears a name, if any: the whole text must agree. -/
def parse? (s : String) : Option α := (all : List α).find? (fun a => name a = s)

theorem parse?_name (a : α) : parse? (name a) = some a := find_name a

theorem mem_all (a : α) : a ∈ (all : List α) := List.mem_of_find?_eq_some (find_name a)

theorem name_injective {a b : α} (h : name a = name b) : a = b := by
  have ha := parse?_name a
  rw [h, parse?_name b] at ha
  exact (Option.some.inj ha).symm

theorem parse?_eq_some_iff {s : String} {a : α} : parse? s = some a ↔ name a = s := by
  constructor
  · intro h
    simpa using List.find?_some h
  · rintro rfl
    exact parse?_name a

end Named

end RecordSearch
