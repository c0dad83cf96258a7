import RecordSearch.Catalog.Name

/-!
# Operators

How a filter compares a column with its operand. An operator takes its operand
in one of three forms, and its template shows that form with a marker in the
place of the operand.
-/
namespace RecordSearch

inductive Operator where
  | equal
  | contains
  | beginsWith
  | endsWith
  | isIn
  deriving DecidableEq, Repr

namespace Operator

/-- What an operator makes of its operand. -/
inductive Form where
  /-- The value itself. -/
  | single
  /-- One text: the operand's text between two fixed ones. -/
  | pattern (before after : String)
  /-- Any number of values. -/
  | list
  deriving DecidableEq, Repr

def form : Operator → Form
  | .equal => .single
  | .contains => .pattern "%" "%"
  | .beginsWith => .pattern "" "%"
  | .endsWith => .pattern "%" ""
  | .isIn => .list

def Form.template : Form → String
  | .single => " = @@VALUE@@"
  | .pattern before after => " ILIKE '" ++ before ++ "@@VALUE@@" ++ after ++ "'"
  | .list => " IN (@@VALUES@@)"

/-- The text after the column, with a marker for the operand. -/
def template (op : Operator) : String := op.form.template

/-- Whether the template writes the quotes around the operand itself. -/
def quotesOperand (op : Operator) : Bool :=
  match op.form with
  | .pattern _ _ => true
  | .single | .list => false

instance : Named Operator where
  kind := .operator
  all := [.equal, .contains, .beginsWith, .endsWith, .isIn]
  name
    | .equal => "EQUAL"
    | .contains => "CONTAINS"
    | .beginsWith => "BEGINS_WITH"
    | .endsWith => "ENDS_WITH"
    | .isIn => "IN"
  find_name a := by cases a <;> decide

end Operator

end RecordSearch
