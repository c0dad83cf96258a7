import RecordSearch.Catalog.Name

/-!
# Tables and columns

A column is named apart from its table, and not every table has every column.
The payload of a record is a JSON document in its `data` column.
-/
namespace RecordSearch

inductive TargetTable where
  | record
  | association
  deriving DecidableEq, Repr

namespace TargetTable

instance : Named TargetTable where
  kind := .targetTable
  all := [.record, .association]
  name
    | .record => "RECORD"
    | .association => "RECORD_LABEL_ASSOCIATION"
  find_name a := by cases a <;> decide

/-- The alias under which statements refer to the table. -/
def aliasName : TargetTable → String
  | .record => "r"
  | .association => "rla"

def tableName : TargetTable → String
  | .record => "record"
  | .association => "record_label_association"

end TargetTable

inductive Column where
  | id
  | projectId
  | recordId
  | category
  | createdAt
  | createdBy
  | data
  | labelingTaskLabelId
  | sourceId
  | sourceType
  | returnType
  | confidence
  | isGoldStar
  | isValidManualLabel
  deriving DecidableEq, Repr

namespace Column

instance : Named Column where
  kind := .column
  all := [.id, .projectId, .recordId, .category, .createdAt, .createdBy, .data,
    .labelingTaskLabelId, .sourceId, .sourceType, .returnType, .confidence,
    .isGoldStar, .isValidManualLabel]
  name
    | .id => "ID"
    | .projectId => "PROJECT_ID"
    | .recordId => "RECORD_ID"
    | .category => "CATEGORY"
    | .createdAt => "CREATED_AT"
    | .createdBy => "CREATED_BY"
    | .data => "DATA"
    | .labelingTaskLabelId => "LABELING_TASK_LABEL_ID"
    | .sourceId => "SOURCE_ID"
    | .sourceType => "SOURCE_TYPE"
    | .returnType => "RETURN_TYPE"
    | .confidence => "CONFIDENCE"
    | .isGoldStar => "IS_GOLD_STAR"
    | .isValidManualLabel => "IS_VALID_MANUAL_LABEL"
  find_name a := by cases a <;> decide

/-- The column's name in the database, whatever its table. -/
def physical : Column → String
  | .id => "id"
  | .projectId => "project_id"
  | .recordId => "record_id"
  | .category => "category"
  | .createdAt => "created_at"
  | .createdBy => "created_by"
  | .data => "data"
  | .labelingTaskLabelId => "labeling_task_label_id"
  | .sourceId => "source_id"
  | .sourceType => "source_type"
  | .returnType => "return_type"
  | .confidence => "confidence"
  | .isGoldStar => "is_gold_star"
  | .isValidManualLabel => "is_valid_manual_label"

end Column

namespace TargetTable

def has : TargetTable → Column → Bool
  | _, .id | _, .projectId | _, .createdAt => true
  | .record, .category | .record, .data => true
  | .association, .category | .association, .data => false
  | .record, _ => false
  | .association, _ => true

end TargetTable

end RecordSearch
