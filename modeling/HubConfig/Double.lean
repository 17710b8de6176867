/-
**Numbers of double precision, and their texts.**

A finite number of double precision is a count of units of `2 ^ -1074`, the least positive one, with
a sign.  Counts have at most 53 significant bits and stay below `2 ^ 1024`.  A decimal is brought
into this form in steps, each of which is exact up to a rounding at its end: the significand, the
power of ten, and the product or quotient of the two.

A number of double precision stands for all the numbers that are rounded to it.  It is written as
the one of them that has the fewest digits, and among those as the nearest.

Main definitions:

* `roundQuotient`: the nearest natural number to a quotient;
* `nearest`: the nearest number with 53 significant bits to a quotient;
* `Double`: a sign and a count;
* `Double.ofScientific?`: a significand times a power of ten;
* `Double.ofFine`: the double that a decimal is rounded to;
* `Double.nearer`, `Double.farther`: the two multiples of a power of ten next to a double;
* `Double.shortest`: the decimal that a double is written as;
* `Double.text`: its text.

Main results:

* `roundQuotient_near`: rounding moves a quotient by half a unit at most;
* `nearest_one`: a number of at most 53 bits is its own nearest;
* `Double.reads_back_or_finest`: the decimal that is written is rounded to the double, or is the
  nearest of the finest ones.
-/

import HubConfig.Text.Digits

set_option autoImplicit false

namespace HubConfig

/-! ### Rounding -/

/-- The nearest natural number to a quotient; of two, the even one. -/
def roundQuotient (numerator denominator : Nat) : Nat :=
  let q := numerator / denominator
  let r := numerator % denominator
  if 2 * r < denominator ∨ (2 * r = denominator ∧ q % 2 = 0) then q else q + 1

theorem roundQuotient_near {numerator denominator : Nat} (h : 0 < denominator) :
    2 * (roundQuotient numerator denominator * denominator) ≤ 2 * numerator + denominator ∧
      2 * numerator ≤ 2 * (roundQuotient numerator denominator * denominator) + denominator := by
  have split := Nat.div_add_mod numerator denominator
  have below := Nat.mod_lt numerator h
  rw [Nat.mul_comm] at split
  simp only [roundQuotient]
  generalize numerator / denominator = q at *
  generalize numerator % denominator = r at *
  have next : (q + 1) * denominator = q * denominator + denominator := Nat.succ_mul ..
  split
  · omega
  · rw [next]
    omega

@[simp] theorem roundQuotient_one (n : Nat) : roundQuotient n 1 = n := by
  simp [roundQuotient, Nat.mod_one]

/-- The nearest number with at most 53 significant bits to a quotient; of two, the one that ends in
an even bit. -/
def nearest (numerator denominator : Nat) : Nat :=
  let unit := 1 <<< ((numerator / denominator).log2 - 52)
  roundQuotient numerator (denominator * unit) * unit

theorem nearest_one {n : Nat} (h : n < 1 <<< 53) : nearest n 1 = n := by
  have small : n.log2 - 52 = 0 := by
    by_cases hn : n = 0
    · simp [hn]
    · have : n.log2 < 53 := (Nat.log2_lt hn).2 (by omega)
      omega
  simp [nearest, small]

/-! ### Doubles -/

/-- A finite number of double precision. -/
structure Double where
  /-- Whether it has a minus sign, as zero may. -/
  negative : Bool
  /-- How many times `2 ^ -1074` it is, but for the sign. -/
  units : Nat
  deriving DecidableEq, Repr

namespace Double

/-- The units in one. -/
def one : Nat := 1 <<< 1074

/-- The units at which doubles end, which are those in `2 ^ 1024`. -/
def limit : Nat := 1 <<< 2098

/-- The greatest power of ten that is a double. -/
def maxPower : Nat := 308

/-- A power of ten, rounded. -/
def powerOfTen (n : Nat) : Nat := nearest (Nat.pow 10 n) 1

/-- A count divided by the greatest power of ten so many times. -/
def divideRepeatedly : (times : Nat) → Nat → Nat
  | 0, units => units
  | times + 1, units =>
      -- Zero is reached after few steps, however many are asked for.
      if units = 0 then 0 else divideRepeatedly times (nearest units (powerOfTen maxPower))

/-- A count divided by a power of ten, which may be beyond the greatest one. -/
def divide (units power : Nat) : Nat :=
  let times := (power - 1) / maxPower
  nearest (divideRepeatedly times units) (powerOfTen (power - times * maxPower))

/-- A count times a power of ten, unless it ends beyond all doubles. -/
def multiply? (units power : Nat) : Option Nat :=
  if units = 0 then some 0
  else if maxPower < power then none
  else
    let product := nearest (units * powerOfTen power) 1
    if product < limit then some product else none

/-- **A significand times a power of ten**, unless it is beyond all doubles. -/
def ofScientific? (negative : Bool) (significand : Nat) (power : Int) : Option Double :=
  let units := nearest (significand * one) 1
  if power < 0 then some ⟨negative, divide units (-power).toNat⟩
  else (multiply? units power.toNat).map fun units => ⟨negative, units⟩

open HubConfig.Text

/-! ### Which digits -/

/-- The places of the finest decimals that are looked at.  The least positive double has 17 digits
there. -/
def finestPlaces : Nat := 340

/-- How many of the finest place make one. -/
def finest : Nat := Nat.pow 10 finestPlaces

/-- The units of the double that a decimal is rounded to, which is a count of the finest place. -/
def ofFine (count : Nat) : Nat := nearest (count * one) finest

/-- How many whole times `step` goes into a double, as a count of the finest place. -/
def multiples (units step : Nat) : Nat := units * finest / (one * step)

/-- Whether the multiple of `step` below a double is nearer than the one above it, or as near and
even. -/
def isNearerBelow (units step : Nat) : Bool :=
  let middle := (2 * multiples units step + 1) * step * one
  let twice := 2 * units * finest
  twice < middle || (twice == middle && multiples units step % 2 == 0)

/-- Of the two multiples of `step` next to a double the nearer one. -/
def nearer (units step : Nat) : Nat :=
  (if isNearerBelow units step then multiples units step else multiples units step + 1) * step

/-- Of the two multiples of `step` next to a double the other one. -/
def farther (units step : Nat) : Nat :=
  (if isNearerBelow units step then multiples units step + 1 else multiples units step) * step

/-- The first multiple of a power of ten that is rounded to a double, from the power
`10 ^ exponent` downwards. -/
def shortestFrom (units : Nat) : (exponent : Nat) → Nat
  | 0 => nearer units 1
  | exponent + 1 =>
      let step := Nat.pow 10 (exponent + 1)
      if ofFine (nearer units step) = units then nearer units step
      else if ofFine (farther units step) = units then farther units step
      else shortestFrom units exponent

/-- **The decimal that a double is written as**, which is a count of the finest place. -/
def shortest (units : Nat) : Nat :=
  shortestFrom units (Nat.toDigits 10 (units * finest / one)).length

theorem reads_back_or_finest (units exponent : Nat) :
    ofFine (shortestFrom units exponent) = units ∨
      shortestFrom units exponent = nearer units 1 := by
  induction exponent with
  | zero => exact Or.inr rfl
  | succ exponent ih =>
    rw [shortestFrom]
    split
    · next h => exact Or.inl h
    · split
      · next h => exact Or.inl h
      · exact ih

/-! ### How they are laid out -/

/-- Digits without the zeros at their end. -/
def withoutLastZeros (ds : List Char) : List Char :=
  (ds.reverse.dropWhile (· == '0')).reverse

/-- A power of ten as it ends a number, with its sign. -/
def exponentText (exponent : Int) : List Char :=
  'e' :: (if exponent < 0 then '-' else '+') :: Nat.toDigits 10 exponent.natAbs

/-- Digits whose first one counts `10 ^ exponent`.  From `10 ^ -5` up to `10 ^ 16` they are written
around a point, with a digit on both sides of it; otherwise the first digit stands alone before the
point, if more follow, and the power of ten at the end. -/
def layOut (ds : List Char) (exponent : Int) : List Char :=
  if -5 ≤ exponent ∧ exponent < 0 then
    ['0', '.'] ++ List.replicate (exponent.natAbs - 1) '0' ++ ds
  else if 0 ≤ exponent ∧ exponent < 16 then
    let whole := exponent.toNat + 1
    if ds.length ≤ whole then ds ++ List.replicate (whole - ds.length) '0' ++ ['.', '0']
    else ds.take whole ++ '.' :: ds.drop whole
  else
    ds.take 1 ++ (if ds.length ≤ 1 then [] else '.' :: ds.drop 1) ++ exponentText exponent

/-- The text of a double without its sign. -/
def magnitudeText (units : Nat) : List Char :=
  if units = 0 then ['0', '.', '0']
  else
    let ds := Nat.toDigits 10 (shortest units)
    layOut (withoutLastZeros ds) ((ds.length : Int) - 1 - finestPlaces)

/-- **The text of a double.** -/
def text (d : Double) : String :=
  String.ofList (if d.negative then '-' :: magnitudeText d.units else magnitudeText d.units)

example : text ⟨true, 0⟩ = "-0.0" := by decide

example : text ⟨false, 1⟩ = "5e-324" := by decide +kernel

end Double

end HubConfig
