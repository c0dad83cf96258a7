import RecordSearch.Json.Value
import RecordSearch.Number.Decimal
import RecordSearch.Number.Word
import RecordSearch.Yaml.Node

/-!
# What YAML nodes mean

A plain scalar is a null, a boolean, a number or, failing these, its text; a
scalar in quotes or in a block is its text. Reals are rounded once, to the
nearest number. A number with a leading zero is text, and so is a real beyond
the finite range. An integer that needs more than 64 bits but not more than 128
is an error, and a longer one is a real.
-/
namespace RecordSearch.Yaml

open Json (Value Number Members)

def isNull (text : String) : Bool :=
  ["", "~", "null", "Null", "NULL"].contains text

def asBool (text : String) : Option Bool :=
  if ["true", "True", "TRUE"].contains text then some true
  else if ["false", "False", "FALSE"].contains text then some false
  else none

def isDigit (c : Char) : Bool := '0' ≤ c && c ≤ '9'

def digitIn (base : Nat) (c : Char) : Option Nat :=
  (hexValue c).bind fun d => if d < base then some d else none

def naturalIn (base : Nat) (cs : List Char) : Option Nat :=
  if cs.isEmpty then none
  else (cs.mapM (digitIn base)).map fun ds => ds.foldl (fun n d => n * base + d) 0

def afterSign : List Char → List Char
  | '+' :: rest => rest
  | '-' :: rest => rest
  | cs => cs

/-- Whether a text would be a decimal integer but for a leading zero. -/
def hasLeadingZero (cs : List Char) : Bool :=
  match afterSign cs with
  | '0' :: d :: rest => (d :: rest).all isDigit
  | _ => false

/-- The magnitude of an integer: by a base mark, or decimal. -/
def magnitude (cs : List Char) : Option Nat :=
  match cs with
  | '0' :: 'x' :: rest => naturalIn 16 rest
  | '0' :: 'o' :: rest => naturalIn 8 rest
  | '0' :: 'b' :: rest => naturalIn 2 rest
  | cs => naturalIn 10 cs

def asInteger (cs : List Char) : Option Int :=
  if hasLeadingZero cs then none
  else match cs with
    | '+' :: rest => (magnitude rest).map Int.ofNat
    | '-' :: rest => (magnitude rest).map fun n => -(n : Int)
    | cs => (magnitude cs).map Int.ofNat

def exponentOf : List Char → Option Int
  | [] => some 0
  | mark :: rest =>
    if mark = 'e' || mark = 'E' then
      match rest with
      | '-' :: ds => (naturalIn 10 ds).map fun n => -(n : Int)
      | '+' :: ds => (naturalIn 10 ds).map Int.ofNat
      | ds => (naturalIn 10 ds).map Int.ofNat
    else none

/-- Digits with at most one point among them, and an exponent. -/
def unsignedReal (negative : Bool) (cs : List Char) : Option Decimal := do
  let whole := cs.takeWhile isDigit
  let rest := cs.dropWhile isDigit
  let (fraction, rest) := match rest with
    | '.' :: rest => (rest.takeWhile isDigit, rest.dropWhile isDigit)
    | rest => ([], rest)
  let e ← exponentOf rest
  let significand ← naturalIn 10 (whole ++ fraction)
  return ⟨negative, significand, e - fraction.length⟩

def realNumeral (cs : List Char) : Option Decimal :=
  match cs with
  | '+' :: rest => unsignedReal false rest
  | '-' :: rest => unsignedReal true rest
  | cs => unsignedReal false cs

def isNonFinite (text : String) : Bool :=
  [".inf", ".Inf", ".INF", "+.inf", "+.Inf", "+.INF", "-.inf", "-.Inf", "-.INF",
    ".nan", ".NaN", ".NAN"].contains text

/-- A real, or the text itself where it is none. What is not finite is null. -/
def plainReal (text : String) : Value :=
  if isNonFinite text then .null
  else if hasLeadingZero text.toList then .string text
  else match (realNumeral text.toList).bind Decimal.nearest with
    | some x => .number (.real x)
    | none => .string text

def plainValue (text : String) : Option Value :=
  if isNull text then some .null
  else match asBool text with
    | some b => some (.bool b)
    | none =>
      match asInteger text.toList with
      | some i =>
        if Word.holds 64 i then some (.number (.int i))
        else if Word.holds 128 i then none
        else some (plainReal text)
      | none => some (plainReal text)

namespace Node

def text? : Node → Option String
  | .scalar _ text => some text
  | .sequence _ | .mapping _ => none

mutual
/-- The value of a node. Keys are texts, and of equal keys the last counts. -/
def value : Node → Option Value
  | .scalar true text => plainValue text
  | .scalar false text => some (.string text)
  | .sequence items => (itemValues items).map Value.array
  | .mapping pairs => (pairValues pairs).map fun ps => Value.object (Members.ofList ps)

def itemValues : List Node → Option (List Value)
  | [] => some []
  | n :: rest => do
    let v ← n.value
    let vs ← itemValues rest
    return v :: vs

def pairValues : List (Node × Node) → Option (List (String × Value))
  | [] => some []
  | (k, n) :: rest => do
    let key ← k.text?
    let v ← n.value
    let ps ← pairValues rest
    return (key, v) :: ps
end

def asBool : Node → Option Bool
  | .scalar true text => Yaml.asBool text
  | _ => none

def asNatural : Node → Option Nat
  | .scalar true text =>
    match text.toList with
    | '-' :: _ => none
    | cs => ((asInteger cs).filter (Word.holdsUnsigned 64)).map Int.toNat
  | _ => none

def isAbsent : Node → Bool
  | .scalar true text => isNull text
  | _ => false

/-- A null is read as nothing. -/
def asOptional {α : Type} (read : Node → Option α) (n : Node) : Option (Option α) :=
  if n.isAbsent then some none else (read n).map some

/-- Nothing at all is read as an empty list. -/
def asList {α : Type} (read : Node → Option α) (n : Node) : Option (List α) :=
  match n with
  | .sequence items => items.mapM read
  | .scalar true "" => some []
  | _ => none

end Node

end RecordSearch.Yaml
