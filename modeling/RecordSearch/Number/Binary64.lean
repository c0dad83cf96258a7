/-!
# Binary numbers of 64 bits

A finite floating-point number is held as its exact value: a sign, a
significand below `2^53` and a power of two, in the one form with a significand of
full width wherever the exponent allows it. Every operation computes the exact
fraction first and rounds it once, to the nearest number, a tie going to the
even significand. Infinities and NaN are not modelled: where rounding would
overflow there is no result.
-/
namespace RecordSearch

namespace Binary64

def leastExponent : Int := -1074

def greatestExponent : Int := 971

/-- The least significand of full width, which is half of what bounds all of them. -/
def fullWidth : Nat := Nat.pow 2 52

theorem fullWidth_lt : fullWidth < 2 * fullWidth := by decide

/-- A significand of full width, except at the least exponent. -/
structure Canonical (significand : Nat) (exponent : Int) : Prop where
  significand_lt : significand < 2 * fullWidth
  le_exponent : leastExponent ≤ exponent
  exponent_le : exponent ≤ greatestExponent
  full : fullWidth ≤ significand ∨ exponent = leastExponent

end Binary64

/-- The value `significand * 2^exponent`, negated when `negative`. -/
structure Binary64 where
  negative : Bool
  significand : Nat
  exponent : Int
  canonical : Binary64.Canonical significand exponent
  deriving DecidableEq, Repr

namespace Binary64

def zero (negative : Bool) : Binary64 where
  negative
  significand := 0
  exponent := leastExponent
  canonical := ⟨by decide, by decide, by decide, .inr rfl⟩

/-- `num / den` rounded to the nearest integer, a half to the even one. -/
def roundDiv (num den : Nat) : Nat :=
  let q := num / den
  let r := num % den
  if 2 * r < den then q else if den < 2 * r then q + 1 else q + q % 2

/-- The fraction `num / den` divided by `2^e`. -/
def descale (num den : Nat) (e : Int) : Nat × Nat :=
  if 0 ≤ e then (num, den * Nat.pow 2 e.toNat) else (num * Nat.pow 2 (-e).toNat, den)

/-- The `e` for which `num / den / 2^e` lies between `2^52` and `2^53`. -/
def fullWidthExponent (num den : Nat) : Int :=
  let e : Int := (num.log2 : Int) - den.log2 - 53
  if (descale num den e).1 < (descale num den e).2 * (2 * fullWidth) then e else e + 1

/-- The significand and the exponent of the number nearest to `num / den`. -/
def nearest (num den : Nat) : Nat × Int :=
  let e := max (fullWidthExponent num den) leastExponent
  let m := roundDiv (descale num den e).1 (descale num den e).2
  if m = 2 * fullWidth then (fullWidth, e + 1) else (m, e)

theorem roundDiv_le {num den w : Nat} (h : num < den * w) : roundDiv num den ≤ w := by
  have hq : num / den < w := Nat.div_lt_of_lt_mul h
  simp only [roundDiv]
  split
  · omega
  · split <;> omega

theorem le_roundDiv {num den w : Nat} (hden : 0 < den) (h : den * w ≤ num) :
    w ≤ roundDiv num den := by
  have hq : w ≤ num / den := (Nat.le_div_iff_mul_le hden).2 (Nat.mul_comm den w ▸ h)
  simp only [roundDiv]
  split
  · omega
  · split <;> omega

theorem descale_eq (num den : Nat) (e : Int) :
    descale num den e = (num * Nat.pow 2 (-e).toNat, den * Nat.pow 2 e.toNat) := by
  unfold descale
  split
  next he =>
    have hzero : (-e).toNat = 0 := by omega
    simp [hzero]
  next he =>
    have hzero : e.toNat = 0 := by omega
    simp [hzero]

theorem descale_pos {num den : Nat} (hden : den ≠ 0) (e : Int) :
    0 < (descale num den e).2 := by
  rw [descale_eq]
  exact Nat.mul_pos (Nat.pos_of_ne_zero hden) (Nat.two_pow_pos _)

/-- A fraction bounded at one scale is bounded at every larger one. -/
theorem descale_lt_mono {num den w : Nat} {e e' : Int} (he : e ≤ e')
    (h : (descale num den e).1 < (descale num den e).2 * w) :
    (descale num den e').1 < (descale num den e').2 * w := by
  simp only [descale_eq, Nat.pow_eq] at h ⊢
  have hnum : num * 2 ^ (-e').toNat ≤ num * 2 ^ (-e).toNat :=
    Nat.mul_le_mul_left _ (Nat.pow_le_pow_right (by decide) (by omega))
  have hden : den * 2 ^ e.toNat ≤ den * 2 ^ e'.toNat :=
    Nat.mul_le_mul_left _ (Nat.pow_le_pow_right (by decide) (by omega))
  exact Nat.lt_of_le_of_lt hnum (Nat.lt_of_lt_of_le h (Nat.mul_le_mul_right w hden))

/-- At the difference of the widths the fraction has full width, or one digit more. -/
theorem descale_log2 {num den : Nat} (hnum : num ≠ 0) (hden : den ≠ 0) {e : Int}
    (he : e = (num.log2 : Int) - den.log2 - 53) :
    (descale num den e).2 * fullWidth ≤ (descale num den e).1 ∧
      (descale num den e).1 < (descale num den e).2 * (4 * fullWidth) := by
  simp only [descale_eq, Nat.pow_eq]
  have hfull : fullWidth = 2 ^ 52 := rfl
  have hfour : 4 * fullWidth = 2 ^ 54 := rfl
  have hsum : den.log2 + 53 + e.toNat = num.log2 + (-e).toNat := by omega
  rw [hfour, hfull]
  constructor
  · calc den * 2 ^ e.toNat * 2 ^ 52
        ≤ 2 ^ (den.log2 + 1) * 2 ^ e.toNat * 2 ^ 52 :=
          Nat.mul_le_mul_right _ (Nat.mul_le_mul_right _ (Nat.le_of_lt Nat.lt_log2_self))
      _ = 2 ^ num.log2 * 2 ^ (-e).toNat := by
          rw [← Nat.pow_add, ← Nat.pow_add, ← Nat.pow_add]
          congr 1
          omega
      _ ≤ num * 2 ^ (-e).toNat := Nat.mul_le_mul_right _ (Nat.log2_self_le hnum)
  · calc num * 2 ^ (-e).toNat
        < 2 ^ (num.log2 + 1) * 2 ^ (-e).toNat :=
          Nat.mul_lt_mul_of_pos_right Nat.lt_log2_self (Nat.two_pow_pos _)
      _ = 2 ^ den.log2 * 2 ^ e.toNat * 2 ^ 54 := by
          rw [← Nat.pow_add, ← Nat.pow_add, ← Nat.pow_add]
          congr 1
          omega
      _ ≤ den * 2 ^ e.toNat * 2 ^ 54 :=
          Nat.mul_le_mul_right _ (Nat.mul_le_mul_right _ (Nat.log2_self_le hden))

/-- One step up the scale halves the fraction. -/
theorem descale_succ (num den : Nat) (e : Int) :
    descale num den (e + 1) = ((descale num den e).1, 2 * (descale num den e).2) ∨
      descale num den e = (2 * (descale num den (e + 1)).1, (descale num den (e + 1)).2) := by
  simp only [descale_eq, Nat.pow_eq]
  by_cases he : 0 ≤ e
  · left
    have hlow : (-(e + 1)).toNat = (-e).toNat := by omega
    have hhigh : (e + 1).toNat = e.toNat + 1 := by omega
    rw [hlow, hhigh, Nat.pow_succ', Nat.mul_left_comm]
  · right
    have hlow : (-e).toNat = (-(e + 1)).toNat + 1 := by omega
    have hhigh : (e + 1).toNat = e.toNat := by omega
    rw [hlow, hhigh, Nat.pow_succ', Nat.mul_left_comm]

theorem fullWidthExponent_spec {num den : Nat} (hnum : num ≠ 0) (hden : den ≠ 0) :
    (descale num den (fullWidthExponent num den)).2 * fullWidth ≤
        (descale num den (fullWidthExponent num den)).1 ∧
      (descale num den (fullWidthExponent num den)).1 <
        (descale num den (fullWidthExponent num den)).2 * (2 * fullWidth) := by
  obtain ⟨hlower, hupper⟩ := descale_log2 hnum hden rfl
  unfold fullWidthExponent
  dsimp only
  split
  next hlt => exact ⟨hlower, hlt⟩
  next hle =>
    generalize fullWidth = w at hlower hupper hle ⊢
    rw [Nat.mul_left_comm] at hupper hle
    rcases descale_succ num den ((num.log2 : Int) - den.log2 - 53) with hsucc | hsucc
    · rw [hsucc, Nat.mul_left_comm, Nat.mul_assoc]
      omega
    · rw [hsucc] at hlower hupper hle
      dsimp only at hlower hupper hle
      rw [Nat.mul_left_comm]
      omega

theorem canonical_nearest {num den : Nat} (hnum : num ≠ 0) (hden : den ≠ 0)
    (h : (nearest num den).2 ≤ greatestExponent) :
    Canonical (nearest num den).1 (nearest num den).2 := by
  obtain ⟨hlower, hupper⟩ := fullWidthExponent_spec hnum hden
  have hleast : leastExponent ≤ max (fullWidthExponent num den) leastExponent :=
    Int.le_max_right _ _
  have hle := roundDiv_le (descale_lt_mono
    (Int.le_max_left (fullWidthExponent num den) leastExponent) hupper)
  have hfull : fullWidth ≤ roundDiv
        (descale num den (max (fullWidthExponent num den) leastExponent)).1
        (descale num den (max (fullWidthExponent num den) leastExponent)).2 ∨
      max (fullWidthExponent num den) leastExponent = leastExponent := by
    rcases Int.le_total leastExponent (fullWidthExponent num den) with hexponent | hexponent
    · rw [Int.max_eq_left hexponent]
      exact .inl (le_roundDiv (descale_pos hden _) hlower)
    · exact .inr (Int.max_eq_right hexponent)
  simp only [nearest] at h ⊢
  split at h
  next hm =>
    rw [if_pos hm]
    exact ⟨fullWidth_lt, Int.le_add_one hleast, h, .inl (Nat.le_refl _)⟩
  next hm =>
    rw [if_neg hm]
    exact ⟨Nat.lt_of_le_of_ne hle hm, hleast, h, hfull⟩

/-- The number nearest to `num / den`; none when that exceeds the finite range. -/
def ofRatio (negative : Bool) (num den : Nat) : Option Binary64 :=
  if hnum : num = 0 then some (zero negative)
  else if hden : den = 0 then none
  else if h : (nearest num den).2 ≤ greatestExponent then
    some ⟨negative, (nearest num den).1, (nearest num den).2, canonical_nearest hnum hden h⟩
  else none

def ratio (x : Binary64) : Nat × Nat :=
  if 0 ≤ x.exponent then (x.significand * Nat.pow 2 x.exponent.toNat, 1)
  else (x.significand, Nat.pow 2 (-x.exponent).toNat)

def times (x y : Binary64) : Option Binary64 :=
  ofRatio (x.negative != y.negative) (x.ratio.1 * y.ratio.1) (x.ratio.2 * y.ratio.2)

def dividedBy (x y : Binary64) : Option Binary64 :=
  ofRatio (x.negative != y.negative) (x.ratio.1 * y.ratio.2) (x.ratio.2 * y.ratio.1)

end Binary64

end RecordSearch
