import RecordSearch.Json.Value

/-!
# Search requests

A request as its client wrote it. Tables, columns, operators and the like are
still the names that were written; nothing has been looked up.
-/
namespace RecordSearch

open Json (Value)

/-- A filter on a column: table, column and operator by name, and values. -/
structure FilterSpec where
  targetTable : String
  targetColumn : String
  operator : String
  values : List Value := []
  deriving Repr

/-- A filter on label associations: a query template by name, and its values. -/
structure SubquerySpec where
  queryTemplate : String
  values : List Value := []
  /-- Keep the records without a match instead of those with one. -/
  negation : Bool := false
  deriving Repr

structure OrderSpec where
  /-- An order key, or `RECORD_DATA@` and a key of the payload. -/
  orderBy : String
  direction : String := "ASC"
  /-- The declared type of the payload attribute. -/
  dataType : Option String := none
  deriving Repr

structure SearchRequest where
  projectId : String
  filters : List FilterSpec := []
  subqueries : List SubquerySpec := []
  order : Option OrderSpec := none
  limit : Option Nat := none
  offset : Option Nat := none
  deriving Repr

/-- Bounds on the shape of a request; zero stands for no bound. -/
structure Limits where
  maxFilters : Nat := 0
  maxInValues : Nat := 0
  deriving DecidableEq, Repr

end RecordSearch
