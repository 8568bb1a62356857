import Mathlib.Algebra.Order.Ring.Rat
import Mathlib.Algebra.Field.Rat
import Mathlib.Data.Nat.Digits.Defs

/-!
# Decimal floating point

Finite decimals `(-1)^negative * coefficient * 10^exponent` with the operations of the General
Decimal Arithmetic, at a precision of `prec` digits and rounding half to even. Two decimals of one
value may differ in their exponents (`0.1`, `0.10`); the order compares the values.

* `fix` : a result rounded to the precision;
* `add`, `mul`, `div` : the rounded operations;
* `quantize` : the same value at a given exponent, unless it needs more digits than the precision;
* `overflows` : a result is beyond the range of the exponents.
-/

namespace Arith

structure Decimal where
  negative : Bool
  coefficient : Nat
  exponent : Int
deriving DecidableEq, Repr

namespace Decimal

/-- The signed coefficient. -/
def signed (d : Decimal) : Int := if d.negative then -d.coefficient else d.coefficient

/-- The value of a decimal. -/
def toRat (d : Decimal) : ℚ := d.signed * 10 ^ d.exponent

/-- The decimal of a natural number. -/
def ofNat (n : Nat) : Decimal := ⟨false, n, 0⟩

instance : Preorder Decimal := Preorder.lift toRat

theorem le_iff (a b : Decimal) : a ≤ b ↔ a.toRat ≤ b.toRat := Iff.rfl

instance : DecidableLE Decimal := fun a b => inferInstanceAs (Decidable (a.toRat ≤ b.toRat))

/-- The smaller of the two, the first one when they are equal. -/
def min (a b : Decimal) : Decimal := if a ≤ b then a else b

theorem min_le_left (a b : Decimal) : min a b ≤ a := by
  unfold min
  split
  · exact le_refl a
  · rename_i h
    exact le_of_not_ge (α := ℚ) h

theorem min_le_right (a b : Decimal) : min a b ≤ b := by
  unfold min
  split
  · assumption
  · exact le_refl b

/-! ## Rounding -/

/-- `n / d` rounded to the nearest integer, halves to the even one. -/
def roundHalfEven (n d : Nat) : Nat :=
  let q := n / d
  let r := n % d
  if 2 * r < d then q else if d < 2 * r then q + 1 else if q % 2 = 0 then q else q + 1

def numDigits (n : Nat) : Nat := (Nat.digits 10 n).length

variable (prec : Nat)

def fix (d : Decimal) : Decimal :=
  let digits := numDigits d.coefficient
  if digits ≤ prec then d
  else
    let coefficient := roundHalfEven d.coefficient (10 ^ (digits - prec))
    let exponent := d.exponent + (digits - prec : Nat)
    if numDigits coefficient ≤ prec then ⟨d.negative, coefficient, exponent⟩
    else ⟨d.negative, coefficient / 10, exponent + 1⟩

/-- The value at the exponent `e`, rounded when digits are dropped. -/
def rescale (d : Decimal) (e : Int) : Decimal :=
  if e ≤ d.exponent then ⟨d.negative, d.coefficient * 10 ^ (d.exponent - e).toNat, e⟩
  else ⟨d.negative, roundHalfEven d.coefficient (10 ^ (e - d.exponent).toNat), e⟩

/-! ## Operations -/

def mul (a b : Decimal) : Decimal :=
  fix prec ⟨a.negative != b.negative, a.coefficient * b.coefficient, a.exponent + b.exponent⟩

/-- The exact sum at the smaller exponent, rounded. A sum of value zero is negative when both terms
are. -/
def add (a b : Decimal) : Decimal :=
  let e := Min.min a.exponent b.exponent
  let total := (a.rescale e).signed + (b.rescale e).signed
  let negative := if total = 0 then a.negative && b.negative else decide (total < 0)
  fix prec ⟨negative, total.natAbs, e⟩

/-- Drop trailing zeros, at most `n` of them. -/
def stripZeros : Nat → Nat → Int → Nat × Int
  | 0, c, e => (c, e)
  | n + 1, c, e => if c % 10 = 0 then stripZeros n (c / 10) (e + 1) else (c, e)

/-- The quotient by a nonzero divisor. An inexact quotient is computed to one digit more than the
precision, with its last digit moved off `0` and `5` so that the rounding sees the remainder. -/
def div (a b : Decimal) : Decimal :=
  let negative := a.negative != b.negative
  let ideal := a.exponent - b.exponent
  if a.coefficient = 0 then fix prec ⟨negative, 0, ideal⟩
  else
    let shift : Int := (numDigits b.coefficient : Int) - numDigits a.coefficient + prec + 1
    let n := a.coefficient * 10 ^ shift.toNat
    let d := b.coefficient * 10 ^ (-shift).toNat
    let q := n / d
    if n % d ≠ 0 then fix prec ⟨negative, if q % 5 = 0 then q + 1 else q, ideal - shift⟩
    else
      let (c, e) := stripZeros shift.toNat q (ideal - shift)
      fix prec ⟨negative, c, e⟩

/-- `none` when the value at the exponent `e` has more digits than the precision. -/
def quantize (d : Decimal) (e : Int) : Option Decimal :=
  if d.coefficient = 0 then some (fix prec ⟨d.negative, 0, e⟩)
  else if d.exponent + (numDigits d.coefficient : Int) - e > prec then none
  else
    let r := d.rescale e
    if numDigits r.coefficient > prec then none else some r

/-! ## The range of the exponents -/

/-- The exponent of the first digit. -/
def adjusted (d : Decimal) : Int := d.exponent + numDigits d.coefficient - 1

/-- `Overflow` is signalled for a rounded result beyond `emax`. -/
def overflows (emax : Int) (d : Decimal) : Bool := d.coefficient ≠ 0 && emax < d.adjusted

end Decimal

end Arith
