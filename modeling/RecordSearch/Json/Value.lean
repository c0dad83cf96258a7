import RecordSearch.Number.Shortest

/-!
# JSON values

Integers and reals are kept apart: an integer is written without a point, and
`-0` is a real. The members of an object are a list of pairs in increasing
order of their keys, each key once.
-/
namespace RecordSearch.Json

inductive Number where
  | int (i : Int)
  | real (x : Binary64)
  deriving DecidableEq, Repr

inductive Value where
  | null
  | bool (b : Bool)
  | number (n : Number)
  | string (s : String)
  | array (items : List Value)
  | object (members : List (String × Value))
  deriving Repr, Inhabited

abbrev Members := List (String × Value)

/-- The members with `key` set to `v`: a later value takes the place of an earlier. -/
def Members.insert (key : String) (v : Value) : Members → Members
  | [] => [(key, v)]
  | (k, w) :: rest =>
    if key = k then (key, v) :: rest
    else if key < k then (key, v) :: (k, w) :: rest
    else (k, w) :: Members.insert key v rest

/-- The object that results from setting the members one after the other. -/
def Members.ofList (pairs : List (String × Value)) : Members :=
  pairs.foldl (fun ms p => Members.insert p.1 p.2 ms) []

def intText : Int → List Char
  | .ofNat n => Nat.toDigits 10 n
  | .negSucc n => '-' :: Nat.toDigits 10 (n + 1)

def Number.text : Number → List Char
  | .int i => intText i
  | .real x => Shortest.text x

end RecordSearch.Json
