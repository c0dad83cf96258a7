import RecordSearch.Json.Tree
import RecordSearch.Text.Quoted

/-!
# Mismatches

What can be wrong with a JSON text that is to be read as something particular:
a fault of syntax, or a value of the wrong kind, a member too many or too few.
The wording of the second kind is fixed here; a fault has none.
-/
namespace RecordSearch.Json

/-- What was met in place of the thing wanted. -/
inductive Found where
  | null
  | bool (b : Bool)
  | number (n : Number)
  | string (s : String)
  | sequence
  | map
  deriving DecidableEq, Repr

inductive Wanted where
  | string
  | boolean
  | natural
  | sequence
  | structure (title : String)
  | elements (title : String) (count : Nat)
  deriving DecidableEq, Repr

inductive Mismatch where
  | wrongType (found : Found) (wanted : Wanted)
  | wrongValue (found : Found) (wanted : Wanted)
  | wrongLength (count : Nat) (wanted : Wanted)
  | unknownField (key : String) (known : List String)
  | duplicateField (name : String)
  | missingField (name : String)
  deriving DecidableEq, Repr

inductive ReadError where
  | fault (f : Fault)
  | mismatch (m : Mismatch)
  deriving DecidableEq, Repr

def inBackticks (s : String) : String := "`" ++ s ++ "`"

def Found.text : Found → String
  | .null => "null"
  | .bool true => "boolean `true`"
  | .bool false => "boolean `false`"
  | .number (.int i) => "integer " ++ inBackticks (String.ofList (intText i))
  | .number (.real x) => "floating point " ++ inBackticks (String.ofList (Shortest.text x))
  | .string s => "string " ++ Text.quoted s
  | .sequence => "sequence"
  | .map => "map"

def Wanted.text : Wanted → String
  | .string => "a string"
  | .boolean => "a boolean"
  | .natural => "u64"
  | .sequence => "a sequence"
  | .structure title => "struct " ++ title
  | .elements title count =>
    "struct " ++ title ++ " with " ++ String.ofList (Nat.toDigits 10 count) ++ " elements"

def Mismatch.text : Mismatch → String
  | .wrongType found wanted =>
    "invalid type: " ++ found.text ++ ", expected " ++ wanted.text
  | .wrongValue found wanted =>
    "invalid value: " ++ found.text ++ ", expected " ++ wanted.text
  | .wrongLength count wanted =>
    "invalid length " ++ String.ofList (Nat.toDigits 10 count) ++ ", expected " ++ wanted.text
  | .unknownField key known =>
    "unknown field " ++ inBackticks key ++ ", expected one of " ++
      ", ".intercalate (known.map inBackticks)
  | .duplicateField name => "duplicate field " ++ inBackticks name
  | .missingField name => "missing field " ++ inBackticks name

end RecordSearch.Json
