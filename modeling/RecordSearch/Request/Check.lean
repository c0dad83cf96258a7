import RecordSearch.Error
import RecordSearch.Request.Basic
import RecordSearch.Text.Blank

/-!
# Checks

What a request must satisfy whatever the catalog says: a project, no more
filters and no longer lists than the limits allow, and values of the right kind.
-/
namespace RecordSearch

open Json (Value)

def withinLimit (limit count : Nat) : Bool := limit = 0 || count ≤ limit

def checkRequest (limits : Limits) (request : SearchRequest) : Except SearchError Unit :=
  if Text.allBlank request.projectId then .error (.malformed .blankProject)
  else if withinLimit limits.maxFilters request.filters.length then .ok ()
  else .error (.malformed (.tooManyFilters request.filters.length limits.maxFilters))

def checkInList (limits : Limits) (count : Nat) : Except SearchError Unit :=
  if withinLimit limits.maxInValues count then .ok ()
  else .error (.malformed (.longInList count limits.maxInValues))

namespace Json

/-- Strings, numbers and booleans can be compared with. -/
def Value.isScalar : Value → Bool
  | .string _ | .number _ | .bool _ => true
  | .null | .array _ | .object _ => false

end Json

/-- Every value is a scalar; otherwise the first that is not is to blame. -/
def requireScalars : List Value → Except SearchError Unit
  | [] => .ok ()
  | v :: rest =>
    if v.isScalar then requireScalars rest else .error (.malformed (.notScalar v))

/-- The texts of values that are all strings; otherwise the first that is not
is to blame. -/
def requireStrings (what : String) : List Value → Except SearchError (List String)
  | [] => .ok []
  | .string s :: rest => (requireStrings what rest).map (s :: ·)
  | v :: _ => .error (.malformed (.notString what v))

end RecordSearch
