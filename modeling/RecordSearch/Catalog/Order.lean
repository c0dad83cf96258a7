import RecordSearch.Catalog.Column

/-!
# Order keys

What a result may be sorted by, in which direction, and how the text of a
payload attribute is cast before it is compared.
-/
namespace RecordSearch

inductive OrderKey where
  | weakSupervisionConfidence
  | modelCallbackConfidence
  | recordId
  | recordCreatedAt
  | recordData
  deriving DecidableEq, Repr

namespace OrderKey

instance : Named OrderKey where
  kind := .orderKey
  all := [.weakSupervisionConfidence, .modelCallbackConfidence, .recordId,
    .recordCreatedAt, .recordData]
  name
    | .weakSupervisionConfidence => "WEAK_SUPERVISION_CONFIDENCE"
    | .modelCallbackConfidence => "MODEL_CALLBACK_CONFIDENCE"
    | .recordId => "RECORD_ID"
    | .recordCreatedAt => "RECORD_CREATED_AT"
    | .recordData => "RECORD_DATA"
  find_name a := by cases a <;> decide

def table : OrderKey → TargetTable
  | .weakSupervisionConfidence | .modelCallbackConfidence => .association
  | .recordId | .recordCreatedAt | .recordData => .record

/-- The column sorted on. A payload attribute has none: its key travels in the
text of the order. -/
def column? : OrderKey → Option Column
  | .weakSupervisionConfidence | .modelCallbackConfidence => some .confidence
  | .recordId => some .id
  | .recordCreatedAt => some .createdAt
  | .recordData => none

end OrderKey

inductive SortDirection where
  | asc
  | desc
  deriving DecidableEq, Repr

namespace SortDirection

instance : Named SortDirection where
  kind := .sortDirection
  all := [.asc, .desc]
  name
    | .asc => "ASC"
    | .desc => "DESC"
  find_name a := by cases a <;> decide

/-- The aggregate that stands for all associations of a record. -/
def aggregate : SortDirection → String
  | .asc => "min"
  | .desc => "max"

/-- Missing values come first in ascending order and last in descending order. -/
def nulls : SortDirection → String
  | .asc => "NULLS FIRST"
  | .desc => "NULLS LAST"

end SortDirection

inductive DataType where
  | category
  | text
  | integer
  | float
  | boolean
  | unknown
  deriving DecidableEq, Repr

namespace DataType

instance : Named DataType where
  kind := .dataType
  all := [.category, .text, .integer, .float, .boolean, .unknown]
  name
    | .category => "CATEGORY"
    | .text => "TEXT"
    | .integer => "INTEGER"
    | .float => "FLOAT"
    | .boolean => "BOOLEAN"
    | .unknown => "UNKNOWN"
  find_name a := by cases a <;> decide

/-- The type of an attribute that declares none. -/
def undeclared : DataType := .text

/-- The SQL type that extracted text is cast to before it is compared. -/
def cast? : DataType → Option String
  | .integer => some "INTEGER"
  | .float => some "FLOAT"
  | .category | .text | .boolean | .unknown => none

end DataType

end RecordSearch
