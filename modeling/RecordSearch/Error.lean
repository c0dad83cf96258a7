import RecordSearch.Catalog.Operator
import RecordSearch.Catalog.Order
import RecordSearch.Catalog.Template
import RecordSearch.Json.Mismatch
import RecordSearch.Json.Outline
import RecordSearch.Json.Printer

/-!
# Errors

Every error is a cause with what it concerns; its wording is in one place.
An error blames the request when the request names something unknown or holds
values that do not fit. The other errors blame the text or the file that was
read, or the templates.
-/
namespace RecordSearch

open Json (Value)

/-- Why the values of a request do not fit. -/
inductive MalformedValues where
  | blankProject
  | tooManyFilters (count limit : Nat)
  | longInList (count limit : Nat)
  | notScalar (v : Value)
  | notString (what : String) (v : Value)
  | noPayloadKey
  | emptyInList
  | operandCount (op : Operator) (table : TargetTable) (column : Column) (count : Nat)
  | listWanted
  | singleWanted (op : Operator)
  | sourceAndIdsWanted (template : QueryTemplate)
  | creatorWanted (template : QueryTemplate)
  | boundsWanted (template : QueryTemplate) (values : List Value)
  | taskWanted (template : QueryTemplate)
  | orderKeyIncomplete (orderBy : String)
  | orderKeyOverfull (orderBy : String)
  | orderKeyWithoutPayload (key : OrderKey)
  deriving Repr

/-- Why a template cannot be filled. -/
inductive TemplateFault where
  | wrongArguments (template : QueryTemplate)
  | unresolved (template : QueryTemplate) (marker : String)
  | noValue (marker : String)
  | notFilter (template : QueryTemplate)
  | noSlot (op : Operator)
  | notQuoted (op : Operator)
  deriving DecidableEq, Repr

inductive ConfigStage where
  | read
  | parse
  deriving DecidableEq, Repr

inductive FileFault where
  | missing
  | notText
  deriving DecidableEq, Repr

inductive SearchError where
  | unknown (kind : NameKind) (name : String)
  | malformed (cause : MalformedValues)
  | template (cause : TemplateFault)
  | config (stage : ConfigStage)
  | file (cause : FileFault)
  | yaml
  | json (cause : Json.ReadError)
  deriving Repr

def decimal (n : Nat) : String := String.ofList (Nat.toDigits 10 n)

def MalformedValues.text : MalformedValues → String
  | .blankProject => "project id must not be empty"
  | .tooManyFilters count limit =>
    decimal count ++ " filters exceed the limit of " ++ decimal limit
  | .longInList count limit =>
    "IN list of " ++ decimal count ++ " values exceeds the limit of " ++ decimal limit
  | .notScalar v => "expected a scalar value, got " ++ v.compact
  | .notString what v => what ++ " must be strings, got " ++ v.compact
  | .noPayloadKey => "RECORD.DATA filters need the JSON key as first value"
  | .emptyInList => "IN needs at least one value"
  | .operandCount op table column count =>
    Named.name op ++ " on " ++ Named.name table ++ "." ++ Named.name column ++
      " needs exactly one value, got " ++ decimal count
  | .listWanted => "IN expects a list of values"
  | .singleWanted op => Named.name op ++ " expects a single value"
  | .sourceAndIdsWanted t =>
    Named.name t ++ " needs a label source followed by at least one id"
  | .creatorWanted t => Named.name t ++ " needs at least one creator id"
  | .boundsWanted t values =>
    Named.name t ++ " needs two bounds of the same type, got " ++ Json.outlineList values
  | .taskWanted t => Named.name t ++ " needs exactly one labeling task id"
  | .orderKeyIncomplete orderBy =>
    "order key " ++ orderBy ++ " needs a JSON key as RECORD_DATA@<key>"
  | .orderKeyOverfull orderBy => "order key " ++ orderBy ++ " does not take a JSON key"
  | .orderKeyWithoutPayload key => "order key " ++ Named.name key ++ " needs a JSON key"

def TemplateFault.text : TemplateFault → String
  | .wrongArguments t => "arguments do not match template " ++ Named.name t
  | .unresolved t marker => "template " ++ Named.name t ++ " left " ++ marker ++ " unresolved"
  | .noValue marker => "no value for placeholder " ++ marker
  | .notFilter t => Named.name t ++ " is not a filter template"
  | .noSlot op => Named.name op ++ " template has no value slot"
  | .notQuoted op => Named.name op ++ " template is not quoted"

def FileFault.text : FileFault → String
  | .missing => "No such file or directory (os error 2)"
  | .notText => "stream did not contain valid UTF-8"

namespace SearchError

/-- The wording of an error, where it has one. -/
def message? : SearchError → Option String
  | .unknown kind name => some ("unknown " ++ kind.text ++ ": " ++ name)
  | .malformed cause => some ("malformed filter values: " ++ cause.text)
  | .template cause => some ("template error: " ++ cause.text)
  | .file cause => some ("io error: " ++ cause.text)
  | .json (.mismatch m) => some ("json error: " ++ m.text)
  | .json (.fault _) | .config _ | .yaml => none

/-- Whether the request itself is to blame. -/
def isRequestError : SearchError → Bool
  | .unknown _ _ | .malformed _ => true
  | .template _ | .config _ | .file _ | .yaml | .json _ => false

end SearchError

def Named.resolve {α : Type} [Named α] (s : String) : Except SearchError α :=
  match Named.parse? s with
  | some a => .ok a
  | none => .error (.unknown (Named.kind α) s)

def TargetTable.columnName (table : TargetTable) (column : Column) :
    Except SearchError String :=
  if table.has column then .ok column.physical
  else .error (.unknown .column (Named.name table ++ "." ++ Named.name column))

def OrderKey.column (key : OrderKey) : Except SearchError Column :=
  match key.column? with
  | some c => .ok c
  | none => .error (.unknown .orderColumn (Named.name key))

end RecordSearch
