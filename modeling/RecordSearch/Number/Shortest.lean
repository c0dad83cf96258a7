import RecordSearch.Number.Binary64

/-!
# Shortest decimal text

The decimal text of a binary number has as few digits as any decimal that
rounds to that number; of the shortest ones it is the nearest to the exact
value, and of two equally near ones the even one. The search looks at the two
neighbours of the exact value on the grid of 1, 2, … 17 digits.
-/
namespace RecordSearch.Shortest

/-- The value `digits * 10^power`. -/
structure Numeral where
  digits : Nat
  power : Int
  deriving DecidableEq, Repr

def digitCount (n : Nat) : Nat := (Nat.toDigits 10 n).length

/-- The `p` for which `num / den` lies from `10^p` up to `10^(p+1)`. -/
def decimalExponent (num den : Nat) : Int :=
  if den ≤ num then (digitCount (num / den) : Int) - 1
  else
    let j := digitCount (den / num)
    if num * Nat.pow 10 (j - 1) = den then 1 - (j : Int) else -(j : Int)

/-- The decimals that round to a number, in quarters of its unit in the last
place: from `low` to `high` around `mid`, the ends among them if `closed`. -/
structure Interval where
  low : Nat
  mid : Nat
  high : Nat
  closed : Bool

/-- The spacing below the least significand of full width is half as large. -/
def interval (x : Binary64) : Interval where
  low :=
    if x.significand = Binary64.fullWidth ∧ x.exponent ≠ Binary64.leastExponent then
      4 * x.significand - 1
    else 4 * x.significand - 2
  mid := 4 * x.significand
  high := 4 * x.significand + 2
  closed := x.significand % 2 = 0

def Interval.holds (i : Interval) (a b d : Nat) : Bool :=
  if i.closed then i.low * b ≤ d * a && d * a ≤ i.high * b
  else i.low * b < d * a && d * a < i.high * b

/-- The nearer of the two grid neighbours in the interval, if either is. -/
def candidate (i : Interval) (a b : Nat) : Option Nat :=
  let v := i.mid * b
  let q := v / a
  match i.holds a b q, i.holds a b (q + 1) with
  | false, false => none
  | true, false => some q
  | false, true => some (q + 1)
  | true, true =>
    let below := v - q * a
    let above := (q + 1) * a - v
    if below < above then some q
    else if above < below then some (q + 1)
    else some (q + q % 2)

def powerRatio (base : Nat) (e : Int) : Nat × Nat :=
  if 0 ≤ e then (Nat.pow base e.toNat, 1) else (1, Nat.pow base (-e).toNat)

def onGrid (x : Binary64) (power : Int) : Option Numeral :=
  let quarter := powerRatio 2 (x.exponent - 2)
  let step := powerRatio 10 power
  (candidate (interval x) (step.1 * quarter.2) (quarter.1 * step.2)).map (⟨·, power⟩)

/-- Trailing zeros move into the power; `fuel` bounds their number. -/
def trim : Nat → Numeral → Numeral
  | 0, n => n
  | fuel + 1, n =>
    if n.digits ≠ 0 ∧ n.digits % 10 = 0 then trim fuel ⟨n.digits / 10, n.power + 1⟩ else n

/-- The shortest numeral that reads back as the magnitude of `x`. Seventeen
digits always suffice. -/
def numeral (x : Binary64) : Numeral :=
  if x.significand = 0 then ⟨0, 0⟩
  else
    let p := decimalExponent x.ratio.1 x.ratio.2
    let found := (List.range 17).findSome? fun n : Nat => onGrid x (p - n)
    trim 17 (found.getD ⟨0, 0⟩)

structure Layout where
  leastPositional : Int
  greatestPositional : Int

/-- From `0.00001` to `9999999999999999.0` a point is enough; outside, the text
is a digit, the other digits after a point, `e`, a sign and the exponent. -/
def layout : Layout := ⟨-5, 15⟩

def zeros (n : Nat) : List Char := List.replicate n '0'

/-- The digits placed around the point; an integral value ends in `.0`. -/
def positional (digits : List Char) (power exponent : Int) : List Char :=
  if 0 ≤ power then digits ++ zeros power.toNat ++ ['.', '0']
  else if 0 ≤ exponent then
    digits.take (exponent.toNat + 1) ++ '.' :: digits.drop (exponent.toNat + 1)
  else '0' :: '.' :: zeros (-exponent - 1).toNat ++ digits

def scientific (digits : List Char) (exponent : Int) : List Char :=
  let mantissa := match digits with
    | [] => []
    | [d] => [d]
    | d :: rest => d :: '.' :: rest
  mantissa ++ 'e' :: (if 0 ≤ exponent then '+' else '-') :: Nat.toDigits 10 exponent.natAbs

def magnitudeText (x : Binary64) : List Char :=
  if x.significand = 0 then ['0', '.', '0']
  else
    let n := numeral x
    let digits := Nat.toDigits 10 n.digits
    let exponent := n.power + digits.length - 1
    if layout.leastPositional ≤ exponent ∧ exponent ≤ layout.greatestPositional then
      positional digits n.power exponent
    else scientific digits exponent

def text (x : Binary64) : List Char :=
  if x.negative then '-' :: magnitudeText x else magnitudeText x

end RecordSearch.Shortest
