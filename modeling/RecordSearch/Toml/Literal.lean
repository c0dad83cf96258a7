import RecordSearch.Number.Decimal
import RecordSearch.Number.Word
import RecordSearch.Toml.Table

/-!
# TOML literals

Booleans, integers, reals and dates: the values written without quotes. The
characters up to the next delimiter must be one literal as a whole. Of reals and
dates only the form is checked; their value is not kept.
-/
namespace RecordSearch.Toml

def isDigit (c : Char) : Bool := '0' ≤ c && c ≤ '9'

def digitIn (base : Nat) (c : Char) : Option Nat :=
  let d :=
    if '0' ≤ c ∧ c ≤ '9' then some (c.toNat - '0'.toNat)
    else if 'a' ≤ c ∧ c ≤ 'f' then some (c.toNat - 'a'.toNat + 10)
    else if 'A' ≤ c ∧ c ≤ 'F' then some (c.toNat - 'A'.toNat + 10)
    else none
  d.bind fun d => if d < base then some d else none

/-- Digits of a base with single underscores between them, after a value so far. -/
def moreDigits (base : Nat) (n : Nat) : List Char → Option Nat
  | [] => some n
  | '_' :: c :: rest => (digitIn base c).bind fun d => moreDigits base (n * base + d) rest
  | c :: rest => (digitIn base c).bind fun d => moreDigits base (n * base + d) rest

def digits (base : Nat) : List Char → Option Nat
  | [] => none
  | c :: rest => (digitIn base c).bind fun d => moreDigits base d rest

def wholeDigits : List Char → Option Nat
  | ['0'] => some 0
  | '0' :: _ => none
  | cs => digits 10 cs

def splitSign : List Char → Bool × List Char
  | '+' :: rest => (false, rest)
  | '-' :: rest => (true, rest)
  | cs => (false, cs)

/-- An integer of 64 bits, decimal with a sign or in another base without. -/
def integer (cs : List Char) : Option Int :=
  let i : Option Int := match cs with
    | '0' :: 'x' :: rest => (digits 16 rest).map Int.ofNat
    | '0' :: 'o' :: rest => (digits 8 rest).map Int.ofNat
    | '0' :: 'b' :: rest => (digits 2 rest).map Int.ofNat
    | cs =>
      let (negative, cs) := splitSign cs
      (wholeDigits cs).map fun n => if negative then -(n : Int) else n
  i.filter (Word.holdsSigned 64)

def exponent (cs : List Char) : Option Int :=
  let (negative, cs) := splitSign cs
  (digits 10 cs).map fun n => if negative then -(n : Int) else n

def isExponentMark (c : Char) : Bool := c = 'e' || c = 'E'

/-- A part of a real from its point on: the digits and the exponent. -/
def fractionAndExponent (cs : List Char) : Option (List Char × Int) :=
  match cs with
  | '.' :: rest =>
    let fraction := rest.takeWhile fun c => !isExponentMark c
    match digits 10 fraction, rest.dropWhile fun c => !isExponentMark c with
    | none, _ => none
    | some _, [] => some (fraction, 0)
    | some _, _ :: e => (exponent e).map fun e => (fraction, e)
  | c :: rest => if isExponentMark c then (exponent rest).map fun e => ([], e) else none
  | [] => none

/-- Whether a text is a real. A positive one must not exceed the finite range. -/
def isReal (cs : List Char) : Bool :=
  let (negative, cs) := splitSign cs
  if cs = ['i', 'n', 'f'] || cs = ['n', 'a', 'n'] then true
  else
    let whole := cs.takeWhile fun c => isDigit c || c = '_'
    match wholeDigits whole, fractionAndExponent (cs.drop whole.length) with
    | some n, some (fraction, e) =>
      let places := fraction.filter (· ≠ '_')
      let significand := places.foldl (fun n c => n * 10 + (c.toNat - '0'.toNat)) n
      negative || (Decimal.nearest ⟨false, significand, e - places.length⟩).isSome
    | _, _ => false

def fixedDigits (width : Nat) (cs : List Char) : Option (Nat × List Char) :=
  let ds := cs.take width
  if ds.length = width && ds.all isDigit then (digits 10 ds).map fun n => (n, cs.drop width)
  else none

def expect (c : Char) : List Char → Option (List Char)
  | d :: rest => if d = c then some rest else none
  | [] => none

def daysIn (year month : Nat) : Nat :=
  if month = 2 then
    if year % 4 = 0 && (year % 100 ≠ 0 || year % 400 = 0) then 29 else 28
  else if [4, 6, 9, 11].contains month then 30
  else 31

def date (cs : List Char) : Option (List Char) := do
  let (year, cs) ← fixedDigits 4 cs
  let (month, cs) ← fixedDigits 2 (← expect '-' cs)
  let (day, cs) ← fixedDigits 2 (← expect '-' cs)
  if 1 ≤ month && month ≤ 12 && 1 ≤ day && day ≤ daysIn year month then some cs else none

/-- Past a time of day; a minute may have a leap second. -/
def time (cs : List Char) : Option (List Char) := do
  let (hour, cs) ← fixedDigits 2 cs
  let (minute, cs) ← fixedDigits 2 (← expect ':' cs)
  let (second, cs) ← fixedDigits 2 (← expect ':' cs)
  if hour ≤ 23 && minute ≤ 59 && second ≤ 60 then
    match cs with
    | '.' :: rest =>
      if (rest.takeWhile isDigit).isEmpty then none else some (rest.dropWhile isDigit)
    | cs => some cs
  else none

def offset (cs : List Char) : Option (List Char) :=
  match cs with
  | 'Z' :: rest | 'z' :: rest => some rest
  | '+' :: rest | '-' :: rest => do
    let (hour, rest) ← fixedDigits 2 rest
    let (minute, rest) ← fixedDigits 2 (← expect ':' rest)
    if hour ≤ 23 && minute ≤ 59 then some rest else none
  | cs => some cs

def isDate (cs : List Char) : Bool := date cs = some []

def isTime (cs : List Char) : Bool := time cs = some []

def isZonedTime (cs : List Char) : Bool := (time cs).bind offset = some []

def isDateTime (cs : List Char) : Bool :=
  match date cs with
  | some ('T' :: rest) | some ('t' :: rest) => isZonedTime rest
  | _ => false

def isLiteralChar (c : Char) : Bool :=
  isDigit c || ('a' ≤ c && c ≤ 'z') || ('A' ≤ c && c ≤ 'Z') || "+-_.:".toList.contains c

def literal (cs : List Char) : Option Item :=
  if cs = ['t', 'r', 'u', 'e'] then some (.boolean true)
  else if cs = ['f', 'a', 'l', 's', 'e'] then some (.boolean false)
  else match integer cs with
    | some i => some (.integer i)
    | none =>
      if isReal cs then some .real
      else if isDate cs || isTime cs || isDateTime cs then some .dateTime
      else none

/-- The literal at the start of a text. A space may stand between date and time. -/
def readLiteral (cs : List Char) : Option (Item × List Char) :=
  let word := cs.takeWhile isLiteralChar
  let rest := cs.drop word.length
  match isDate word, rest with
  | true, ' ' :: d :: more =>
    if isDigit d then
      let clock := (d :: more).takeWhile isLiteralChar
      if isZonedTime clock then some (.dateTime, (d :: more).drop clock.length) else none
    else some (.dateTime, rest)
  | _, _ => (literal word).map fun item => (item, rest)

end RecordSearch.Toml
