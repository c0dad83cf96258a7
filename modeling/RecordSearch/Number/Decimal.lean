import RecordSearch.Number.Binary64

/-!
# Decimal numerals

A decimal numeral is a sign, a significand and a power of ten. It becomes a
binary number in one of two ways. `nearest` rounds its exact value once.
`scaled` rounds the significand, then multiplies or divides it by a rounded
power of ten, so that its last digit can differ from the nearest number's.
-/
namespace RecordSearch

/-- The value `significand * 10^power`, negated when `negative`. -/
structure Decimal where
  negative : Bool
  significand : Nat
  power : Int
  deriving DecidableEq, Repr

namespace Decimal

/-- The number nearest to the numeral's exact value; none if it is too large.
Powers far outside the range are settled without writing them out. -/
def nearest (d : Decimal) : Option Binary64 :=
  if d.significand = 0 then some (.zero d.negative)
  else if 310 < d.power then none
  else if d.power + (Nat.toDigits 10 d.significand).length < -330 then
    some (.zero d.negative)
  else if 0 ≤ d.power then
    Binary64.ofRatio d.negative (d.significand * Nat.pow 10 d.power.toNat) 1
  else
    Binary64.ofRatio d.negative d.significand (Nat.pow 10 (-d.power).toNat)

def powerOfTen (n : Nat) : Option Binary64 := Binary64.ofRatio false (Nat.pow 10 n) 1

def greatestPower : Nat := 308

def scaleOnce (x : Binary64) (power : Int) : Option Binary64 := do
  let p ← powerOfTen power.natAbs
  if 0 ≤ power then x.times p else x.dividedBy p

/-- Division by `10^greatestPower` until the power is within reach. A second
division takes every significand of 64 bits to zero, so two suffice. -/
def scaled (d : Decimal) : Option Binary64 := do
  let x ← Binary64.ofRatio d.negative d.significand 1
  if d.power.natAbs ≤ greatestPower then scaleOnce x d.power
  else if d.significand = 0 then some x
  else if 0 ≤ d.power then none
  else
    let y ← scaleOnce x (-greatestPower)
    let rest := d.power + greatestPower
    if rest.natAbs ≤ greatestPower then scaleOnce y rest
    else some (.zero d.negative)

end Decimal

end RecordSearch
