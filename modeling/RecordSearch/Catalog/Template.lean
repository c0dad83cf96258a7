import RecordSearch.Catalog.Name

/-!
# Query templates

The SQL of the base statement, of the join that sorting by confidence needs, and
of the subqueries that filter by label associations. A marker is a name between
two pairs of `@`; it is replaced when the template is filled. Values are not
quoted in the templates, for what replaces a marker brings its own quotes. Only
the label source stands inside quotes of the template, and it is always one of
the names below.
-/
namespace RecordSearch

/-- Who or what made a label association. -/
inductive LabelSource where
  | manual
  | weakSupervision
  | informationSource
  | modelCallback
  deriving DecidableEq, Repr

instance : Named LabelSource where
  kind := .labelSource
  all := [.manual, .weakSupervision, .informationSource, .modelCallback]
  name
    | .manual => "MANUAL"
    | .weakSupervision => "WEAK_SUPERVISION"
    | .informationSource => "INFORMATION_SOURCE"
    | .modelCallback => "MODEL_CALLBACK"
  find_name a := by cases a <;> decide

/-- The confidence of an association, for the sources that have one. -/
def confidenceExpression : String :=
  "CASE WHEN source_type IN ('" ++ Named.name LabelSource.weakSupervision ++ "', '" ++
    Named.name LabelSource.modelCallback ++ "') THEN confidence ELSE null END"

inductive QueryTemplate where
  | base
  | orderJoin
  | label
  | noLabel
  | informationSource
  | createdBy
  | confidence
  | callbackConfidence
  | differentClassification
  | differentExtraction
  deriving DecidableEq, Repr

namespace QueryTemplate

instance : Named QueryTemplate where
  kind := .queryTemplate
  all := [.base, .orderJoin, .label, .noLabel, .informationSource,
    .createdBy, .confidence, .callbackConfidence, .differentClassification, .differentExtraction]
  name
    | .base => "BASE_QUERY"
    | .orderJoin => "ORDER_RLA"
    | .label => "SUBQUERY_RLA_LABEL"
    | .noLabel => "SUBQUERY_RLA_NO_LABEL"
    | .informationSource => "SUBQUERY_RLA_INFORMATION_SOURCE"
    | .createdBy => "SUBQUERY_RLA_CREATED_BY"
    | .confidence => "SUBQUERY_RLA_CONFIDENCE"
    | .callbackConfidence => "SUBQUERY_CALLBACK_CONFIDENCE"
    | .differentClassification => "SUBQUERY_RLA_DIFFERENT_IS_CLASSIFICATION"
    | .differentExtraction => "SUBQUERY_RLA_DIFFERENT_IS_EXTRACTION"
  find_name a := by cases a <;> decide

/-- Templates that a request may name as a filter. -/
def isFilter : QueryTemplate → Bool
  | .base | .orderJoin => false
  | _ => true

/-- The label source that a template fixes, if it does. -/
def source? : QueryTemplate → Option LabelSource
  | .createdBy => some .manual
  | .confidence => some .weakSupervision
  | .callbackConfidence => some .modelCallback
  | .differentClassification | .differentExtraction => some .informationSource
  | .base | .orderJoin | .label | .noLabel | .informationSource => none

def baseText : String :=
  "\n" ++
  "SELECT r.project_id, r.id record_id @@SELECT_ADD@@\n" ++
  "FROM record r\n" ++
  "@@FROM_ADD@@\n" ++
  "WHERE r.project_id = @@PROJECT_ID@@\n" ++
  "@@WHERE_ADD@@\n" ++
  "@@ORDER_BY_ADD@@\n"

def orderJoinText : String :=
  "\n" ++
  "LEFT JOIN (\n" ++
  "    SELECT rla.project_id pID, rla.record_id rID, @@ORDER_COLUMNS@@\n" ++
  "    FROM record_label_association rla\n" ++
  "    GROUP BY rla.project_id, rla.record_id ) order_rla\n" ++
  "    ON r.project_id = order_rla.pID AND r.id = order_rla.rID "

def labelText : String :=
  "\n" ++
  "SELECT rla.project_id pID, rla.record_id rID\n" ++
  "FROM record_label_association rla\n" ++
  "WHERE rla.project_id = @@PROJECT_ID@@\n" ++
  "    AND rla.source_type = '@@SOURCE_TYPE@@'\n" ++
  "    AND rla.labeling_task_label_id IN (@@IN_VALUES@@)\n" ++
  "GROUP BY rla.project_id, rla.record_id "

def noLabelText : String :=
  "\n" ++
  "SELECT r.project_id pID, r.id rID\n" ++
  "FROM record r\n" ++
  "LEFT JOIN record_label_association rla\n" ++
  "    ON r.project_id = rla.project_id\n" ++
  "    AND r.id = rla.record_id\n" ++
  "    AND rla.source_type = '@@SOURCE_TYPE@@'\n" ++
  "    AND rla.labeling_task_label_id IN (@@IN_VALUES@@)\n" ++
  "WHERE r.project_id = @@PROJECT_ID@@ AND rla.id IS NULL "

def informationSourceText : String :=
  "\n" ++
  "SELECT rla.project_id pID, rla.record_id rID\n" ++
  "FROM record_label_association rla\n" ++
  "WHERE rla.project_id = @@PROJECT_ID@@\n" ++
  "    AND rla.source_type = '@@SOURCE_TYPE@@'\n" ++
  "    AND rla.source_id IN (@@IN_VALUES@@)\n" ++
  "GROUP BY rla.project_id, rla.record_id "

def createdByText : String :=
  "\n" ++
  "SELECT rla.project_id pID, rla.record_id rID\n" ++
  "FROM record_label_association rla\n" ++
  "WHERE rla.project_id = @@PROJECT_ID@@\n" ++
  "    AND rla.source_type = 'MANUAL'\n" ++
  "    AND rla.created_by IN (@@IN_VALUES@@)\n" ++
  "GROUP BY rla.project_id, rla.record_id "

def confidenceText : String :=
  "\n" ++
  "SELECT rla.project_id pID, rla.record_id rID\n" ++
  "FROM record_label_association rla\n" ++
  "WHERE rla.project_id = @@PROJECT_ID@@\n" ++
  "    AND rla.source_type = 'WEAK_SUPERVISION'\n" ++
  "    AND rla.confidence BETWEEN @@VALUE1@@ AND @@VALUE2@@ "

def callbackConfidenceText : String :=
  "\n" ++
  "SELECT rla.project_id pID, rla.record_id rID\n" ++
  "FROM record_label_association rla\n" ++
  "WHERE rla.project_id = @@PROJECT_ID@@\n" ++
  "    AND rla.source_type = 'MODEL_CALLBACK'\n" ++
  "    AND rla.confidence BETWEEN @@VALUE1@@ AND @@VALUE2@@ "

def differentClassificationText : String :=
  "\n" ++
  "SELECT project_id pID, record_id rID, COUNT(*) different_versions, SUM(full_count) full_count\n" ++
  "FROM (\n" ++
  "\tSELECT rla.record_id,rla.project_id, rla.labeling_task_label_id, COUNT(*) full_count\n" ++
  "\tFROM record_label_association rla\n" ++
  "\tINNER JOIN labeling_task_label ltl\n" ++
  "\t\tON rla.labeling_task_label_id = ltl.id AND rla.project_id = ltl.project_id\n" ++
  "\tWHERE rla.project_id = @@PROJECT_ID@@\n" ++
  "\tAND ltl.labeling_task_id = @@LABELING_TASK_ID@@\n" ++
  "\tAND rla.source_type = 'INFORMATION_SOURCE'\n" ++
  "\tAND rla.return_type = 'RETURN'\n" ++
  "\tGROUP BY rla.record_id,rla.project_id, rla.labeling_task_label_id ) base_select\n" ++
  "GROUP BY record_id, project_id\n" ++
  "HAVING COUNT(*) >1 "

def differentExtractionText : String :=
  "\n" ++
  "SELECT project_id pID, record_id rID, COUNT(*) different_versions, SUM(full_count) full_count\n" ++
  "FROM (\n" ++
  "\tSELECT rla.record_id,rla.project_id, rlat.label,COUNT(*) full_count\n" ++
  "\tFROM record_label_association rla\n" ++
  "\tINNER JOIN (\n" ++
  "\t\tSELECT rla.id, rla.labeling_task_label_id ||'-' || array_agg(rlat.token_index ORDER BY rlat.token_index)::TEXT as label\n" ++
  "\t\tFROM record_label_association rla\n" ++
  "\t\tINNER JOIN record_label_association_token rlat\n" ++
  "\t\t\tON rla.id = rlat.record_label_association_id\n" ++
  "\t\tWHERE rla.project_id = @@PROJECT_ID@@\n" ++
  "\t\t\tAND rla.source_type = 'INFORMATION_SOURCE'\n" ++
  "\t\t\tAND rla.return_type = 'YIELD'\n" ++
  "\t\tGROUP BY rla.id, rla.labeling_task_label_id\n" ++
  "\t) rlat\n" ++
  "\t\tON rla.id = rlat.id\n" ++
  "\tINNER JOIN labeling_task_label ltl\n" ++
  "\t\tON rla.labeling_task_label_id = ltl.id AND rla.project_id = ltl.project_id\n" ++
  "\tWHERE rla.project_id = @@PROJECT_ID@@\n" ++
  "\tAND ltl.labeling_task_id = @@LABELING_TASK_ID@@\n" ++
  "\tAND rla.source_type = 'INFORMATION_SOURCE'\n" ++
  "\tAND rla.return_type = 'YIELD'\n" ++
  "\tGROUP BY rla.record_id,rla.project_id, rlat.label ) base_select\n" ++
  "GROUP BY record_id, project_id\n" ++
  "HAVING COUNT(*) >1\n" ++
  "\n"

/-- The SQL of a template, with its markers. -/
def text : QueryTemplate → String
  | .base => baseText
  | .orderJoin => orderJoinText
  | .label => labelText
  | .noLabel => noLabelText
  | .informationSource => informationSourceText
  | .createdBy => createdByText
  | .confidence => confidenceText
  | .callbackConfidence => callbackConfidenceText
  | .differentClassification => differentClassificationText
  | .differentExtraction => differentExtractionText

end QueryTemplate

end RecordSearch
