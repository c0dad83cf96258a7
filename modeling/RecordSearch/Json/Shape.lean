import RecordSearch.Json.Mismatch

/-!
# Reading shapes

A shape says which fields a structure has, how each is spelled and read, and
which of them must be there. A structure is written as an object, in which the
order of the fields is free, or as an array of its fields in their order, of
which those at the end may be left out if they need not be there. Reading goes
from left to right and the first thing wrong is the error.
-/
namespace RecordSearch.Json

abbrev Read (α : Type) := Except ReadError α

def Tree.wrong (wanted : Wanted) : Tree → ReadError
  | .broken f => .fault f
  | .null => .mismatch (.wrongType .null wanted)
  | .bool b => .mismatch (.wrongType (.bool b) wanted)
  | .number n => .mismatch (.wrongType (.number n) wanted)
  | .string s => .mismatch (.wrongType (.string s) wanted)
  | .array _ _ => .mismatch (.wrongType .sequence wanted)
  | .object _ _ => .mismatch (.wrongType .map wanted)

def Read.ofFault {α : Type} : Except Fault α → Read α
  | .ok a => .ok a
  | .error f => .error (.fault f)

namespace Tree

def asString : Tree → Read String
  | .string s => .ok s
  | t => .error (t.wrong .string)

def asBool : Tree → Read Bool
  | .bool b => .ok b
  | t => .error (t.wrong .boolean)

def asNatural : Tree → Read Nat
  | .number (.int (.ofNat n)) => .ok n
  | .number (.int (.negSucc n)) =>
    .error (.mismatch (.wrongValue (.number (.int (.negSucc n))) .natural))
  | t => .error (t.wrong .natural)

def asValue (t : Tree) : Read Value := Read.ofFault t.value

def asOptional {α : Type} (read : Tree → Read α) : Tree → Read (Option α)
  | .null => .ok none
  | t => (read t).map some

def asList {α : Type} (read : Tree → Read α) : Tree → Read (List α)
  | .array items ending => do
    let as ← items.mapM read
    Read.ofFault ending.check
    return as
  | t => .error (t.wrong .sequence)

end Tree

/-- A field of a structure under construction. -/
structure Field (α : Type) where
  name : String
  /-- The keys under which the field may be written. -/
  spellings : List String
  required : Bool
  /-- What reading the field does to the structure. -/
  read : Tree → Read (α → α)

structure Shape (α : Type) where
  title : String
  fields : List (Field α)
  /-- The structure before any field is read. -/
  start : α

namespace Shape

variable {α : Type}

def spellings (shape : Shape α) : List String := shape.fields.flatMap Field.spellings

/-- The members of an object, given the names of the fields already seen. -/
def readMembers (shape : Shape α) (ending : Ending) :
    List String → α → List (String × Tree) → Read α
  | seen, a, [] => do
    Read.ofFault ending.check
    match shape.fields.find? fun f => f.required && !seen.contains f.name with
    | some f => .error (.mismatch (.missingField f.name))
    | none => .ok a
  | seen, a, (key, t) :: rest =>
    match shape.fields.find? fun f => f.spellings.contains key with
    | none => .error (.mismatch (.unknownField key shape.spellings))
    | some f =>
      if seen.contains f.name then .error (.mismatch (.duplicateField f.name))
      else do
        let set ← f.read t
        readMembers shape ending (f.name :: seen) (set a) rest

/-- The items of an array, against the fields that are still to come. -/
def readItems (shape : Shape α) (ending : Ending) (count : Nat) :
    α → List (Field α) → List Tree → Read α
  | a, fields, [] => do
    Read.ofFault ending.check
    if fields.any Field.required then
      .error (.mismatch (.wrongLength count (.elements shape.title shape.fields.length)))
    else .ok a
  | _, [], _ :: _ => .error (.fault .malformed)
  | a, f :: fields, t :: rest => do
    let set ← f.read t
    readItems shape ending count (set a) fields rest

def read (shape : Shape α) : Tree → Read α
  | .object members ending => shape.readMembers ending [] shape.start members
  | .array items ending => shape.readItems ending items.length shape.start shape.fields items
  | t => .error (t.wrong (.structure shape.title))

/-- The structure that a whole text writes. -/
def readText (shape : Shape α) (text : String) : Read α := do
  let document := Document.ofText text
  let a ← shape.read document.tree
  if document.trailing then .error (.fault .malformed) else .ok a

end Shape

end RecordSearch.Json
