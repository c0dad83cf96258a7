/-!
# TOML tables

A table is a list of keys with items. How a table came about decides what may
still be added to it: one that a header opened takes no second header, and one
that dotted keys made takes no header at all. A table written inline is complete.
-/
namespace RecordSearch.Toml

/-- What made a table. -/
inductive TableKind where
  /-- A header of its own. -/
  | headed
  /-- The header of a table inside it. -/
  | implied
  /-- A dotted key. -/
  | dotted
  deriving DecidableEq, Repr

inductive Item where
  | string (s : String)
  | integer (i : Int)
  | real
  | boolean (b : Bool)
  | dateTime
  | array (items : List Item)
  | inline (entries : List (String × Item))
  | table (kind : TableKind) (entries : List (String × Item))
  /-- The tables that headers in double brackets open one after the other. -/
  | tables (ts : List (List (String × Item)))
  deriving Repr, Inhabited

abbrev Table := List (String × Item)

/-- How many keys a dotted key may join, and how deeply values may be nested. -/
def nestingLimit : Nat := 79

mutual
def Item.depth : Item → Nat
  | .array items => itemsDepth items + 1
  | .inline entries => entriesDepth entries + 1
  | .table _ entries => entriesDepth entries
  | .tables ts => tablesDepth ts
  | .string _ | .integer _ | .real | .boolean _ | .dateTime => 0

def itemsDepth : List Item → Nat
  | [] => 0
  | item :: rest => max item.depth (itemsDepth rest)

def entriesDepth : List (String × Item) → Nat
  | [] => 0
  | (_, item) :: rest => max item.depth (entriesDepth rest)

def tablesDepth : List (List (String × Item)) → Nat
  | [] => 0
  | t :: rest => max (entriesDepth t) (tablesDepth rest)
end

namespace Table

def alter (key : String) (f : Option Item → Option Item) : Table → Option Table
  | [] => (f none).map fun item => [(key, item)]
  | (k, item) :: rest =>
    if k = key then (f (some item)).map fun item => (k, item) :: rest
    else (alter key f rest).map fun rest => (k, item) :: rest

def alterLast (f : Table → Option Table) : List Table → Option (List Table)
  | [] => none
  | [t] => (f t).map fun t => [t]
  | t :: u :: rest => (alterLast f (u :: rest)).map fun ts => t :: ts

/-- A change of the table that the keys of a header lead to. -/
def alterAt (f : Table → Option Table) : List String → Table → Option Table
  | [], t => f t
  | key :: path, t =>
    alter key (fun
      | none => (alterAt f path []).map (.table .implied)
      | some (.table kind t) => (alterAt f path t).map (.table kind)
      | some (.tables ts) => (alterLast (alterAt f path) ts).map .tables
      | some _ => none) t

/-- A change of the table that the front part of a dotted key leads to. Tables with
a header of their own cannot be reached this way. Implied ones, and the last of
several, can be passed through but not changed themselves. -/
def alterDotted (f : Table → Option Table) : List String → Table → Option Table
  | [], t => f t
  | key :: path, t =>
    alter key (fun
      | none => (alterDotted f path []).map (.table .dotted)
      | some (.table .dotted t) => (alterDotted f path t).map (.table .dotted)
      | some (.table .implied t) =>
        if path.isEmpty then none else (alterDotted f path t).map (.table .implied)
      | some (.tables ts) =>
        if path.isEmpty then none else (alterLast (alterDotted f path) ts).map .tables
      | some _ => none) t

def insertNew (key : String) (item : Item) : Table → Option Table :=
  alter key fun
    | none => some item
    | some _ => none

/-- The header of a table: it must be new, or implied so far. -/
def openHeader (path : List String) (key : String) : Table → Option Table :=
  alterAt (alter key fun
    | none => some (.table .headed [])
    | some (.table .implied t) => some (.table .headed t)
    | some _ => none) path

/-- A header in double brackets: one more table of its name. -/
def openNext (path : List String) (key : String) : Table → Option Table :=
  alterAt (alter key fun
    | none => some (.tables [[]])
    | some (.tables ts) => some (.tables (ts ++ [[]]))
    | some _ => none) path

/-- A key with its value, under the header at `path`. -/
def assign (path dotted : List String) (key : String) (item : Item) : Table → Option Table :=
  alterAt (alterDotted (insertNew key item) dotted) path

end Table

end RecordSearch.Toml
