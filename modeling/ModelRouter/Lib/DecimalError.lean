import ModelRouter.Lib.DecimalRounding
import ModelRouter.Lib.RelativeError

/-!
# How far decimal arithmetic is off

On decimals of either sign a result is the exact one with a relative error of `roundingError prec`
at most (`fix_close`, `mul_close`, `add_close`, `div_close`), and a quantized value is half a unit
of its last digit off at most (`quantize_error`), so that it does not pass a bound that is a number
of such units (`quantize_le`).
-/

namespace Arith.Decimal
open Rounding

variable {a b d r : Decimal} {prec : Nat}

/-- Half a unit of the last of `prec` digits. -/
def roundingError (prec : Nat) : ℚ := (10 : ℚ) ^ (1 - prec : ℤ) / 2

theorem roundingError_nonneg : 0 ≤ roundingError prec := by
  unfold roundingError
  positivity

/-! ## The magnitude -/

def magnitude (d : Decimal) : Decimal := { d with negative := false }

theorem magnitude_nonneg (d : Decimal) : d.magnitude.Nonneg := fun h => by cases h

theorem toRat_eq_magnitude (d : Decimal) : d.toRat = if d.negative then -d.magnitude.toRat
    else d.magnitude.toRat := by
  unfold toRat signed magnitude
  cases d.negative <;> simp

theorem abs_toRat (d : Decimal) : |d.toRat| = d.magnitude.toRat := by
  have hnonneg := nonneg_iff.mp d.magnitude_nonneg
  rw [toRat_eq_magnitude]
  split
  · rw [abs_neg, abs_of_nonneg hnonneg]
  · exact abs_of_nonneg hnonneg

/-- Two decimals of one sign are as far apart as their magnitudes. -/
theorem abs_sub_toRat (h : a.negative = b.negative) :
    |a.toRat - b.toRat| = |a.magnitude.toRat - b.magnitude.toRat| := by
  rw [toRat_eq_magnitude a, toRat_eq_magnitude b, h]
  split
  · rw [neg_sub_neg, abs_sub_comm]
  · rfl

theorem fix_negative (d : Decimal) : (fix prec d).negative = d.negative := by
  unfold fix
  dsimp only
  split_ifs <;> rfl

theorem fix_magnitude (d : Decimal) : (fix prec d).magnitude = fix prec d.magnitude := by
  unfold fix magnitude
  dsimp only
  split_ifs <;> rfl

theorem rescale_negative (d : Decimal) (e : Int) : (d.rescale e).negative = d.negative := by
  unfold rescale
  split <;> rfl

theorem rescale_magnitude (d : Decimal) (e : Int) :
    (d.rescale e).magnitude = d.magnitude.rescale e := by
  unfold rescale magnitude
  dsimp only
  split <;> rfl

/-! ## The operations -/

section
variable (hprec : 0 < prec)
include hprec

theorem fix_close (d : Decimal) : RelClose (roundingError prec) d.toRat (fix prec d).toRat := by
  have hnonneg := nonneg_iff.mp d.magnitude_nonneg
  unfold RelClose
  rw [abs_sub_toRat (fix_negative d), fix_magnitude, toRat_fix d.magnitude_nonneg hprec, abs_toRat]
  exact rounded_error (by decide) hnonneg

theorem mul_close (a b : Decimal) :
    RelClose (roundingError prec) (a.toRat * b.toRat) (mul prec a b).toRat := by
  have hproduct : toRat ⟨a.negative != b.negative, a.coefficient * b.coefficient,
      a.exponent + b.exponent⟩ = a.toRat * b.toRat := by
    unfold toRat signed
    rw [zpow_add₀ (by norm_num)]
    cases a.negative <;> cases b.negative <;> push_cast <;> simp <;> ring
  rw [← hproduct]
  exact fix_close hprec _

theorem add_close (a b : Decimal) :
    RelClose (roundingError prec) (a.toRat + b.toRat) (add prec a b).toRat := by
  unfold add
  dsimp only
  generalize he : Min.min a.exponent b.exponent = e
  generalize htotal : (a.rescale e).signed + (b.rescale e).signed = total
  have hsum : (total : ℚ) * 10 ^ e = a.toRat + b.toRat := by
    rw [← htotal, Int.cast_add, add_mul, signed_rescale (by omega), signed_rescale (by omega)]
  have hsigned : signed ⟨if total = 0 then a.negative && b.negative
      else decide (total < 0), total.natAbs, e⟩ = total := by
    unfold signed
    dsimp only
    rcases lt_trichotomy total 0 with hneg | rfl | hpos
    · rw [if_neg hneg.ne, decide_eq_true hneg, if_pos rfl]
      omega
    · split_ifs <;> rfl
    · rw [if_neg hpos.ne', decide_eq_false hpos.not_gt, if_neg Bool.false_ne_true]
      omega
  have hvalue := fix_close hprec ⟨if total = 0 then a.negative && b.negative
      else decide (total < 0), total.natAbs, e⟩
  unfold toRat at hvalue
  rw [hsigned] at hvalue
  rw [← hsum]
  exact hvalue

theorem div_close (ha : a.Nonneg) (hb : b.Nonneg) (hne : b.coefficient ≠ 0) :
    RelClose (roundingError prec) (a.toRat / b.toRat) (div prec a b).toRat := by
  have hquotient := div_nonneg (nonneg_iff.mp ha) (nonneg_iff.mp hb)
  unfold RelClose
  rw [toRat_div hprec ha hb hne, abs_of_nonneg hquotient]
  exact rounded_error (by decide) hquotient

end

/-! ## Quantization -/

theorem rescale_exponent (d : Decimal) (e : Int) : (d.rescale e).exponent = e := by
  unfold rescale
  split <;> rfl

theorem rescale_error (d : Decimal) (e : Int) :
    |((d.rescale e).signed : ℚ) - d.toRat / 10 ^ e| ≤ 1 / 2 := by
  have hnearest := nearest_error (d.magnitude.toRat / 10 ^ e)
  rw [← coefficient_rescale d.magnitude_nonneg, ← rescale_magnitude, Int.cast_natCast] at hnearest
  unfold signed
  rw [rescale_negative, toRat_eq_magnitude]
  split
  · rw [Int.cast_neg, Int.cast_natCast, neg_div, neg_sub_neg, abs_sub_comm]
    exact hnearest
  · exact hnearest

/-- A quantized value is the nearest number of units. -/
theorem toRat_quantize {e : Int} (h : d.quantize prec e = some r) :
    ∃ n : Int, r.toRat = n * 10 ^ e ∧ |n - d.toRat / 10 ^ e| ≤ 1 / 2 := by
  by_cases hzero : d.coefficient = 0
  · obtain ⟨r', hr', hvalue⟩ := @quantize_zero d prec e hzero
    cases h.symm.trans hr'
    have hd : d.toRat = 0 := by
      unfold toRat signed
      simp [hzero]
    refine ⟨0, ?_, ?_⟩
    · rw [hvalue, Int.cast_zero, zero_mul]
    · rw [hd]
      norm_num
  · obtain ⟨rfl, -, -⟩ := (quantize_eq_some_iff hzero).mp h
    refine ⟨(d.rescale e).signed, ?_, rescale_error d e⟩
    rw [toRat, rescale_exponent]

/-- **A quantized value** is half a unit off at most. -/
theorem quantize_error {e : Int} (h : d.quantize prec e = some r) :
    |r.toRat - d.toRat| ≤ 10 ^ e / 2 := by
  obtain ⟨n, hvalue, herror⟩ := toRat_quantize h
  have hunit : (0 : ℚ) < 10 ^ e := by positivity
  calc |r.toRat - d.toRat| = |n - d.toRat / 10 ^ e| * 10 ^ e := by
        rw [hvalue, ← abs_of_pos hunit, ← abs_mul, sub_mul, abs_of_pos hunit,
          div_mul_cancel₀ _ hunit.ne']
    _ ≤ 1 / 2 * 10 ^ e := mul_le_mul_of_nonneg_right herror hunit.le
    _ = 10 ^ e / 2 := by ring

/-- Less than half a unit above a number of units, it is rounded down to it. -/
theorem quantize_le {e n : Int} (h : d.quantize prec e = some r)
    (hlt : d.toRat < n * 10 ^ e + 10 ^ e / 2) :
    r.toRat ≤ n * 10 ^ e := by
  obtain ⟨m, hvalue, herror⟩ := toRat_quantize h
  have hunit : (0 : ℚ) < 10 ^ e := by positivity
  have hscaled : d.toRat / 10 ^ e < n + 1 / 2 := by
    rw [div_lt_iff₀ hunit]
    linarith
  have hle : (m : ℚ) < n + 1 := by
    have := (abs_le.mp herror).2
    linarith
  have hle' : m ≤ n := by
    have : m < n + 1 := by exact_mod_cast hle
    omega
  rw [hvalue]
  exact mul_le_mul_of_nonneg_right (Int.cast_le.mpr hle') hunit.le

end Arith.Decimal
