import Mathlib.Algebra.Order.Field.Power
import Mathlib.Data.Nat.Digits.Lemmas
import Mathlib.Data.Rat.Floor
import Mathlib.Tactic.FieldSimp
import Mathlib.Tactic.NormNum
import ModelRouter.Lib.Decimal
import ModelRouter.Lib.Rounding

/-!
# Decimal arithmetic is correctly rounded

On non-negative decimals the operations give the exact result, rounded once: `toRat_mul`,
`toRat_add`, `toRat_div`, each `rounded 10 prec` of the exact value. So they are monotone
(`mul_mono`, `add_mono`, `div_mono`), and so is `quantize` (`quantize_mono`), which does not fail
below a decimal it does not fail on. Nor does a smaller result overflow (`overflows_mono`).
-/

namespace Arith.Decimal
open Rounding

/-! ## Digits and halves -/

theorem numDigits_le_iff {n k : Nat} : numDigits n ≤ k ↔ n < 10 ^ k :=
  Nat.digits_length_le_iff (by decide) n

theorem lt_numDigits_iff {n k : Nat} : k < numDigits n ↔ 10 ^ k ≤ n := by
  rw [← not_le, numDigits_le_iff, not_lt]

theorem numDigits_pos {n : Nat} (h : n ≠ 0) : 0 < numDigits n :=
  lt_numDigits_iff.mpr (by rw [pow_zero]; exact Nat.one_le_iff_ne_zero.mpr h)

theorem numDigits_mono {n m : Nat} (h : n ≤ m) : numDigits n ≤ numDigits m :=
  numDigits_le_iff.mpr (h.trans_lt (numDigits_le_iff.mp le_rfl))

theorem roundHalfEven_eq (n : Nat) {d : Nat} (hd : 0 < d) :
    (roundHalfEven n d : Int) = nearest ((n : ℚ) / d) := by
  have hfloor : ⌊(n : ℚ) / d⌋ = ((n / d : Nat) : Int) := Rat.floor_natCast_div_natCast n d
  have hd' : (0 : ℚ) < d := Nat.cast_pos.mpr hd
  have hlow : Int.fract ((n : ℚ) / d) < 1 / 2 ↔ 2 * (n % d) < d := by
    rw [Int.fract_div_natCast_eq_div_natCast_mod, div_lt_iff₀ hd', ← Nat.cast_lt (α := ℚ)]
    push_cast
    constructor <;> intro h <;> linarith
  have hhigh : 1 / 2 < Int.fract ((n : ℚ) / d) ↔ d < 2 * (n % d) := by
    rw [Int.fract_div_natCast_eq_div_natCast_mod, lt_div_iff₀ hd', ← Nat.cast_lt (α := ℚ)]
    push_cast
    constructor <;> intro h <;> linarith
  have heven : Even ((n / d : Nat) : Int) ↔ n / d % 2 = 0 := by
    rw [Int.even_coe_nat, Nat.even_iff]
  unfold roundHalfEven nearest
  simp only [hfloor, hlow, hhigh, heven]
  split_ifs <;> simp

/-! ## Non-negative decimals -/

variable {a b d : Decimal} {prec : Nat}

/-- Its value is not negative: a negative zero is one. -/
def Nonneg (d : Decimal) : Prop := d.negative = true → d.coefficient = 0

theorem toRat_of_nonneg (h : d.Nonneg) : d.toRat = d.coefficient * 10 ^ d.exponent := by
  unfold toRat signed
  split
  · rename_i hnegative
    simp [h hnegative]
  · rw [Int.cast_natCast]

theorem nonneg_iff : d.Nonneg ↔ 0 ≤ d.toRat := by
  constructor
  · intro h
    rw [toRat_of_nonneg h]
    positivity
  · intro h hnegative
    have hpower : (0 : ℚ) < 10 ^ d.exponent := by positivity
    have hsigned : (0 : ℚ) ≤ d.signed := nonneg_of_mul_nonneg_left h hpower
    rw [signed, if_pos hnegative] at hsigned
    have : (0 : Int) ≤ -d.coefficient := by exact_mod_cast hsigned
    omega

theorem log_toRat (h : d.Nonneg) (hne : d.coefficient ≠ 0) :
    Int.log 10 d.toRat = numDigits d.coefficient - 1 + d.exponent := by
  obtain ⟨k, hk⟩ : ∃ k, numDigits d.coefficient = k + 1 :=
    ⟨numDigits d.coefficient - 1, by have := numDigits_pos hne; omega⟩
  have hle : 10 ^ k ≤ d.coefficient := lt_numDigits_iff.mp (by omega)
  have hlt : d.coefficient < 10 ^ (k + 1) := numDigits_le_iff.mp (by omega)
  have hexponent : (numDigits d.coefficient : Int) - 1 + d.exponent = k + d.exponent := by omega
  rw [toRat_of_nonneg h, hexponent]
  apply log_eq_of_mem (by decide)
  · rw [Nat.cast_ofNat, zpow_add₀ (by norm_num), zpow_natCast]
    gcongr
    exact_mod_cast hle
  · rw [Nat.cast_ofNat, show (k : Int) + d.exponent + 1 =
      (k + 1 : Nat) + d.exponent by push_cast; ring,
      zpow_add₀ (by norm_num), zpow_natCast]
    gcongr
    exact_mod_cast hlt

/-! ## The precision -/

theorem unit_toRat (h : d.Nonneg) (hne : d.coefficient ≠ 0) :
    unit 10 prec d.toRat = numDigits d.coefficient + d.exponent - prec := by
  unfold unit
  rw [log_toRat h hne]
  omega

theorem fix_nonneg (h : d.Nonneg) : (fix prec d).Nonneg := by
  unfold fix
  dsimp only
  by_cases hdigits : numDigits d.coefficient ≤ prec
  · rw [if_pos hdigits]
    exact h
  · have hpositive : d.negative = false := by
      by_contra hnegative
      rw [h (by simpa using hnegative)] at hdigits
      exact hdigits (by simp [numDigits])
    rw [if_neg hdigits]
    split <;> simp [Nonneg, hpositive]

/-- **`fix` rounds the value.** -/
theorem toRat_fix (h : d.Nonneg) (hprec : 0 < prec) :
    (fix prec d).toRat = rounded 10 prec d.toRat := by
  have hnonneg := @fix_nonneg d prec h
  unfold fix at hnonneg ⊢
  dsimp only at hnonneg ⊢
  by_cases hdigits : numDigits d.coefficient ≤ prec
  · rw [if_pos hdigits]
    by_cases hzero : d.coefficient = 0
    · rw [toRat_of_nonneg h, hzero, Nat.cast_zero, zero_mul, rounded_zero]
    · refine (rounded_eq_self (by decide) (?_ :
        d.toRat = (d.coefficient : Int) * _ ^ d.exponent) ?_).symm
      · simpa using toRat_of_nonneg h
      · rw [unit_toRat h hzero]
        omega
  · obtain ⟨k, hk⟩ : ∃ k, numDigits d.coefficient - prec = k + 1 :=
      ⟨numDigits d.coefficient - prec - 1, by omega⟩
    have hne : d.coefficient ≠ 0 := by
      intro hzero
      rw [hzero] at hdigits
      exact hdigits (by simp [numDigits])
    have hunit : unit 10 prec d.toRat = d.exponent + (k + 1 : Nat) := by
      rw [unit_toRat h hne]
      omega
    have hscaled : d.toRat / 10 ^ (d.exponent + (k + 1 : Nat)) =
        (d.coefficient : ℚ) / (10 ^ (k + 1) : Nat) := by
      rw [toRat_of_nonneg h, zpow_add₀ (by norm_num), zpow_natCast, Nat.cast_pow, Nat.cast_ofNat]
      field_simp
    have hrounded : rounded 10 prec d.toRat =
        (roundHalfEven d.coefficient (10 ^ (k + 1)) : ℚ) * 10 ^ (d.exponent + (k + 1 : Nat)) := by
      unfold rounded
      rw [hunit, Nat.cast_ofNat, hscaled, ← roundHalfEven_eq _ (by positivity), Int.cast_natCast]
    rw [if_neg hdigits, hk] at hnonneg ⊢
    rw [hrounded]
    by_cases hcarry : numDigits (roundHalfEven d.coefficient (10 ^ (k + 1))) ≤ prec
    · rw [if_pos hcarry] at hnonneg ⊢
      exact toRat_of_nonneg hnonneg
    · -- the digits were all nines: the rounded coefficient is a power of ten
      have hpower : roundHalfEven d.coefficient (10 ^ (k + 1)) = 10 ^ prec := by
        have hle : (roundHalfEven d.coefficient (10 ^ (k + 1)) : Int) ≤ (10 ^ prec : Nat) := by
          rw [roundHalfEven_eq _ (by positivity)]
          apply nearest_le_of_le
          rw [div_le_iff₀ (by positivity), Int.cast_natCast, ← Nat.cast_mul, Nat.cast_le, ← pow_add]
          exact (numDigits_le_iff.mp (by omega)).le
        have hge := lt_numDigits_iff.mp (not_le.mp hcarry)
        omega
      obtain ⟨m, rfl⟩ : ∃ m, prec = m + 1 := ⟨prec - 1, by omega⟩
      rw [if_neg hcarry] at hnonneg ⊢
      rw [toRat_of_nonneg hnonneg, hpower, pow_succ, Nat.mul_div_cancel _ (by decide),
        zpow_add_one₀ (by norm_num)]
      push_cast
      ring

/-! ## Products and sums -/

/-- The product before it is rounded. -/
theorem mul_eq_fix (ha : a.Nonneg) (hb : b.Nonneg) :
    ∃ d : Decimal, d.Nonneg ∧ d.toRat = a.toRat * b.toRat ∧ mul prec a b = fix prec d := by
  have hnonneg : Nonneg ⟨a.negative != b.negative, a.coefficient * b.coefficient,
      a.exponent + b.exponent⟩ := by
    intro hnegative
    rw [bne_iff_ne] at hnegative
    apply Nat.mul_eq_zero.mpr
    cases hsign : a.negative with
    | true => exact Or.inl (ha hsign)
    | false => exact Or.inr (hb (by simpa [hsign] using hnegative))
  refine ⟨_, hnonneg, ?_, rfl⟩
  rw [toRat_of_nonneg hnonneg, toRat_of_nonneg ha, toRat_of_nonneg hb, zpow_add₀ (by norm_num)]
  push_cast
  ring

theorem signed_rescale {e : Int} (h : e ≤ d.exponent) :
    ((d.rescale e).signed : ℚ) * 10 ^ e = d.toRat := by
  obtain ⟨k, hk⟩ : ∃ k : Nat, d.exponent - e = k := ⟨(d.exponent - e).toNat, by omega⟩
  have hexponent : d.exponent = k + e := by omega
  have hpower : (10 : ℚ) ^ d.exponent = 10 ^ k * 10 ^ e := by
    rw [hexponent, zpow_add₀ (by norm_num), zpow_natCast]
  unfold rescale toRat signed
  rw [if_pos h, hk, Int.toNat_natCast, hpower]
  dsimp only
  split <;> push_cast <;> ring

/-- The sum before it is rounded. -/
theorem add_eq_fix (ha : a.Nonneg) (hb : b.Nonneg) :
    ∃ d : Decimal, d.Nonneg ∧ d.toRat = a.toRat + b.toRat ∧ add prec a b = fix prec d := by
  unfold add
  dsimp only
  generalize he : Min.min a.exponent b.exponent = e
  generalize htotal : (a.rescale e).signed + (b.rescale e).signed = total
  have hsum : (total : ℚ) * 10 ^ e = a.toRat + b.toRat := by
    rw [← htotal, Int.cast_add, add_mul, signed_rescale (by omega), signed_rescale (by omega)]
  have hpos : 0 ≤ total := by
    have hsum' : (0 : ℚ) ≤ total * 10 ^ e := hsum ▸ add_nonneg (nonneg_iff.mp ha) (nonneg_iff.mp hb)
    exact_mod_cast nonneg_of_mul_nonneg_left hsum' (by positivity)
  have hnonneg : Nonneg ⟨if total = 0 then a.negative && b.negative
      else decide (total < 0), total.natAbs, e⟩ := by
    intro hnegative
    by_contra hne
    have hzero : total ≠ 0 := fun h => hne (by simp [h])
    rw [if_neg hzero, decide_eq_true_eq] at hnegative
    omega
  have hvalue : (total.natAbs : ℚ) = total := by
    rw [← Int.cast_natCast, Int.natAbs_of_nonneg hpos]
  refine ⟨_, hnonneg, ?_, rfl⟩
  rw [toRat_of_nonneg hnonneg, ← hsum, ← hvalue]

/-! ## Quotients -/

theorem numDigits_mul_pow {n : Nat} (hn : n ≠ 0) (k : Nat) :
    numDigits (n * 10 ^ k) = numDigits n + k := by
  have hlow : 10 ^ (numDigits n - 1) ≤ n := lt_numDigits_iff.mp (by have := numDigits_pos hn; omega)
  have hhigh : n < 10 ^ numDigits n := numDigits_le_iff.mp le_rfl
  apply le_antisymm
  · rw [numDigits_le_iff, pow_add]
    exact Nat.mul_lt_mul_of_pos_right hhigh (by positivity)
  · have hlt : numDigits n - 1 + k < numDigits (n * 10 ^ k) := by
      rw [lt_numDigits_iff, pow_add]
      exact Nat.mul_le_mul_right _ hlow
    omega

theorem stripZeros_value (n c : Nat) (e : Int) :
    ((stripZeros n c e).1 : ℚ) * 10 ^ (stripZeros n c e).2 = c * 10 ^ e := by
  induction n generalizing c e with
  | zero => rfl
  | succ n ih =>
      unfold stripZeros
      split
      · rename_i hzero
        obtain ⟨m, rfl⟩ : ∃ m, c = 10 * m := ⟨c / 10, by omega⟩
        rw [ih, Nat.mul_div_cancel_left _ (by decide), zpow_add_one₀ (by norm_num)]
        push_cast
        ring
      · rfl

theorem rounded_scaled {k : Nat} {y : ℚ} (hlow : 10 ^ (prec + k) ≤ y)
    (hhigh : y < 10 ^ (prec + k + 1)) (e : Int) :
    rounded 10 prec (y * 10 ^ e) = nearest (y / 10 ^ (k + 1)) * 10 ^ (e + (k + 1 : Nat)) := by
  have hlog : Int.log 10 (y * 10 ^ e) = (prec + k : Nat) + e := by
    apply log_eq_of_mem (by decide)
    · rw [Nat.cast_ofNat, zpow_add₀ (by norm_num), zpow_natCast]
      gcongr
    · rw [Nat.cast_ofNat, add_right_comm, zpow_add₀ (by norm_num), ← Nat.cast_add_one, zpow_natCast]
      gcongr
  have hunit : unit 10 prec (y * 10 ^ e) = e + (k + 1 : Nat) := by
    unfold unit
    rw [hlog]
    omega
  have hscaled : y * 10 ^ e / 10 ^ (e + (k + 1 : Nat)) = y / 10 ^ (k + 1) := by
    rw [zpow_add₀ (by norm_num), zpow_natCast]
    field_simp
  unfold rounded
  rw [hunit, Nat.cast_ofNat, hscaled]

/-- A quotient that is cut off beyond the precision, with its last digit moved off the halves,
rounds like the whole quotient. -/
theorem rounded_sticky {q : Nat} {x : ℚ} (hq : 10 ^ prec ≤ q) (hx : q < x) (hx' : x < q + 1)
    (e : Int) :
    rounded 10 prec (((if q % 5 = 0 then q + 1 else q : Nat) : ℚ) * 10 ^ e) =
      rounded 10 prec (x * 10 ^ e) := by
  obtain ⟨k, hk⟩ : ∃ k, numDigits q = prec + k + 1 :=
    ⟨numDigits q - prec - 1, by have := lt_numDigits_iff.mpr hq; omega⟩
  have hlow : 10 ^ (prec + k) ≤ q := lt_numDigits_iff.mp (by omega)
  have hhigh : q < 10 ^ (prec + k) * 10 := by
    rw [← pow_succ]
    exact numDigits_le_iff.mp (by omega)
  generalize hj : (if q % 5 = 0 then q + 1 else q : Nat) = j
  have hqj : q ≤ j ∧ j ≤ q + 1 ∧ j % 5 ≠ 0 ∧ j < 10 ^ (prec + k) * 10 := by
    rw [← hj]
    split <;> omega
  have hlow' : (10 : ℚ) ^ (prec + k) ≤ q := by exact_mod_cast hlow
  have hqhigh : (q : ℚ) + 1 ≤ 10 ^ (prec + k + 1) := by
    rw [pow_succ]
    exact_mod_cast hhigh
  have hjhigh : (j : ℚ) < 10 ^ (prec + k + 1) := by
    rw [pow_succ]
    exact_mod_cast hqj.2.2.2
  rw [rounded_scaled (hlow'.trans (Nat.cast_le.mpr hqj.1)) hjhigh,
    rounded_scaled (by linarith) (by linarith)]
  -- the two neighbouring halves, `half` apart, have both on the same side
  obtain ⟨half, hhalf⟩ : ∃ half, half = 5 * 10 ^ k := ⟨_, rfl⟩
  have hhalf' : (10 : ℚ) ^ (k + 1) = 2 * half := by
    rw [hhalf, pow_succ]
    push_cast
    ring
  have hbelow : half * (q / half) ≤ q := Nat.mul_div_le q half
  have habove : q < half * (q / half + 1) := Nat.lt_mul_div_succ q (by rw [hhalf]; positivity)
  have hfive : ∀ m, half * m % 5 = 0 := by
    intro m
    rw [hhalf, mul_assoc]
    exact Nat.mul_mod_right 5 _
  have hjbelow : half * (q / half) < j := by
    have := hfive (q / half)
    rw [← hj]
    split <;> omega
  have hjabove : j < half * (q / half + 1) := by
    have := hfive (q / half + 1)
    omega
  have hposhalf : (0 : ℚ) < 2 * half := hhalf' ▸ by positivity
  have hbelow' : (half : ℚ) * (q / half : Nat) ≤ q := by exact_mod_cast hbelow
  have habove' : (q : ℚ) + 1 ≤ half * ((q / half : Nat) + 1) := by exact_mod_cast habove
  have hjbelow' : (half : ℚ) * (q / half : Nat) < j := by exact_mod_cast hjbelow
  have hjabove' : (j : ℚ) < half * ((q / half : Nat) + 1) := by exact_mod_cast hjabove
  have hnearest : nearest ((j : ℚ) / 10 ^ (k + 1)) = nearest (x / 10 ^ (k + 1)) := by
    rw [hhalf']
    refine @nearest_congr ℚ _ _ _ _ _ _ ((q / half : Nat) : Int) ?_ ?_ ?_ ?_
    all_goals rw [Int.cast_natCast]
    · rw [lt_div_iff₀ hposhalf]
      linarith
    · rw [div_lt_iff₀ hposhalf]
      linarith
    · rw [lt_div_iff₀ hposhalf]
      linarith
    · rw [div_lt_iff₀ hposhalf]
      linarith
  rw [hnearest]

theorem zpow_eq_div (shift : Int) : (10 : ℚ) ^ shift = 10 ^ shift.toNat / 10 ^ (-shift).toNat := by
  have hshift : shift = (shift.toNat : Int) - ((-shift).toNat : Int) := by omega
  nth_rewrite 1 [hshift]
  rw [zpow_sub₀ (by norm_num), zpow_natCast, zpow_natCast]

/-- The quotient before it is rounded: it rounds like the exact one. -/
theorem div_eq_fix (ha : a.Nonneg) (hb : b.Nonneg) (hne : b.coefficient ≠ 0) :
    ∃ d : Decimal, d.Nonneg ∧ rounded 10 prec d.toRat = rounded 10 prec (a.toRat / b.toRat) ∧
      div prec a b = fix prec d := by
  have hsign : ∀ coefficient exponent, (a.coefficient = 0 → coefficient = 0) →
      Nonneg ⟨a.negative != b.negative, coefficient, exponent⟩ := by
    intro coefficient exponent hzero hnegative
    rw [bne_iff_ne] at hnegative
    apply hzero
    cases hsign : a.negative with
    | true => exact ha hsign
    | false => exact absurd (hb (by simpa [hsign] using hnegative)) hne
  unfold div
  dsimp only
  by_cases hzero : a.coefficient = 0
  · rw [if_pos hzero]
    have hnonneg := hsign 0 (a.exponent - b.exponent) fun _ => rfl
    refine ⟨_, hnonneg, ?_, rfl⟩
    rw [toRat_of_nonneg hnonneg, toRat_of_nonneg ha, hzero]
    simp
  · rw [if_neg hzero]
    generalize hshift : (numDigits b.coefficient : Int) - numDigits a.coefficient + prec + 1 = shift
    generalize hn : a.coefficient * 10 ^ shift.toNat = n
    generalize hd : b.coefficient * 10 ^ (-shift).toNat = d
    have hpos : 0 < d := by
      rw [← hd]
      positivity
    have hdigits : numDigits n = numDigits d + prec + 1 := by
      rw [← hn, ← hd, numDigits_mul_pow hzero, numDigits_mul_pow hne]
      omega
    have hlow : 10 ^ prec ≤ n / d := by
      have hn' : 10 ^ (prec + numDigits d) ≤ n := lt_numDigits_iff.mp (by omega)
      have hd' : d ≤ 10 ^ numDigits d := (numDigits_le_iff.mp le_rfl).le
      rw [Nat.le_div_iff_mul_le hpos]
      calc 10 ^ prec * d ≤ 10 ^ prec * 10 ^ numDigits d := Nat.mul_le_mul_left _ hd'
        _ = 10 ^ (prec + numDigits d) := (pow_add _ _ _).symm
        _ ≤ n := hn'
    have hexact : a.toRat / b.toRat = (n : ℚ) / d * 10 ^ (a.exponent - b.exponent - shift) := by
      have hb' : (b.coefficient : ℚ) ≠ 0 := Nat.cast_ne_zero.mpr hne
      rw [toRat_of_nonneg ha, toRat_of_nonneg hb, ← hn, ← hd, zpow_sub₀ (by norm_num),
        zpow_sub₀ (by norm_num),
        zpow_eq_div shift]
      push_cast
      field_simp
    have hpos' : (0 : ℚ) < d := Nat.cast_pos.mpr hpos
    have hdivision := Nat.div_add_mod n d
    by_cases hrem : n % d = 0
    · rw [if_neg (not_not.mpr hrem)]
      have hstrip := stripZeros_value shift.toNat (n / d) (a.exponent - b.exponent - shift)
      have hq : (n : ℚ) / d = (n / d : Nat) := by
        rw [div_eq_iff hpos'.ne']
        exact_mod_cast (by rw [mul_comm]; omega : n = n / d * d)
      generalize stripZeros shift.toNat (n / d) (a.exponent - b.exponent - shift) =
        stripped at hstrip ⊢
      have hnonneg := hsign stripped.1 stripped.2 fun hzero' => absurd hzero' hzero
      refine ⟨_, hnonneg, ?_, rfl⟩
      rw [toRat_of_nonneg hnonneg, hstrip, hexact, hq]
    · rw [if_pos hrem]
      have hnonneg := hsign (if n / d % 5 = 0 then n / d + 1
          else n / d) (a.exponent - b.exponent - shift)
        fun hzero' => absurd hzero' hzero
      refine ⟨_, hnonneg, ?_, rfl⟩
      rw [toRat_of_nonneg hnonneg, hexact]
      refine rounded_sticky hlow ?_ ?_ _
      · rw [lt_div_iff₀ hpos']
        exact_mod_cast (by rw [mul_comm]; omega : n / d * d < n)
      · rw [div_lt_iff₀ hpos']
        have hmod := Nat.mod_lt n hpos
        exact_mod_cast (by rw [add_mul, mul_comm]; omega : n < (n / d + 1) * d)

/-! ## The operations -/

theorem Nonneg.mul (ha : a.Nonneg) (hb : b.Nonneg) : (mul prec a b).Nonneg := by
  obtain ⟨d, hd, -, heq⟩ := @mul_eq_fix a b prec ha hb
  exact heq ▸ fix_nonneg hd

theorem Nonneg.add (ha : a.Nonneg) (hb : b.Nonneg) : (add prec a b).Nonneg := by
  obtain ⟨d, hd, -, heq⟩ := @add_eq_fix a b prec ha hb
  exact heq ▸ fix_nonneg hd

theorem Nonneg.div (ha : a.Nonneg) (hb : b.Nonneg) (hne : b.coefficient ≠ 0) :
    (div prec a b).Nonneg := by
  obtain ⟨d, hd, -, heq⟩ := @div_eq_fix a b prec ha hb hne
  exact heq ▸ fix_nonneg hd

section Correct
variable (hprec : 0 < prec)
include hprec

/-- **The product is the exact one, rounded.** -/
theorem toRat_mul (ha : a.Nonneg) (hb : b.Nonneg) :
    (mul prec a b).toRat = rounded 10 prec (a.toRat * b.toRat) := by
  obtain ⟨d, hd, hvalue, heq⟩ := @mul_eq_fix a b prec ha hb
  rw [heq, toRat_fix hd hprec, hvalue]

/-- **The sum is the exact one, rounded.** -/
theorem toRat_add (ha : a.Nonneg) (hb : b.Nonneg) :
    (add prec a b).toRat = rounded 10 prec (a.toRat + b.toRat) := by
  obtain ⟨d, hd, hvalue, heq⟩ := @add_eq_fix a b prec ha hb
  rw [heq, toRat_fix hd hprec, hvalue]

/-- **The quotient is the exact one, rounded.** -/
theorem toRat_div (ha : a.Nonneg) (hb : b.Nonneg) (hne : b.coefficient ≠ 0) :
    (div prec a b).toRat = rounded 10 prec (a.toRat / b.toRat) := by
  obtain ⟨d, hd, hvalue, heq⟩ := @div_eq_fix a b prec ha hb hne
  rw [heq, toRat_fix hd hprec, hvalue]

variable {a' b' d' : Decimal}

theorem mul_mono (ha : a.Nonneg) (hb : b.Nonneg) (haa' : a ≤ a') (hbb' : b ≤ b') :
    mul prec a b ≤ mul prec a' b' := by
  have ha₀ := nonneg_iff.mp ha
  have hb₀ := nonneg_iff.mp hb
  have ha' : a'.Nonneg := nonneg_iff.mpr (ha₀.trans haa')
  have hb' : b'.Nonneg := nonneg_iff.mpr (hb₀.trans hbb')
  rw [le_iff, toRat_mul hprec ha hb, toRat_mul hprec ha' hb']
  exact rounded_mono (by decide) hprec (mul_nonneg ha₀ hb₀)
    (mul_le_mul haa' hbb' hb₀ (ha₀.trans haa'))

theorem add_mono (ha : a.Nonneg) (hb : b.Nonneg) (haa' : a ≤ a') (hbb' : b ≤ b') :
    add prec a b ≤ add prec a' b' := by
  have ha₀ := nonneg_iff.mp ha
  have hb₀ := nonneg_iff.mp hb
  have ha' : a'.Nonneg := nonneg_iff.mpr (ha₀.trans haa')
  have hb' : b'.Nonneg := nonneg_iff.mpr (hb₀.trans hbb')
  rw [le_iff, toRat_add hprec ha hb, toRat_add hprec ha' hb']
  exact rounded_mono (by decide) hprec (add_nonneg ha₀ hb₀) (add_le_add haa' hbb')

theorem div_mono (ha : a.Nonneg) (hb : b.Nonneg) (hne : b.coefficient ≠ 0) (haa' : a ≤ a') :
    div prec a b ≤ div prec a' b := by
  have ha₀ := nonneg_iff.mp ha
  have hb₀ := nonneg_iff.mp hb
  have ha' : a'.Nonneg := nonneg_iff.mpr (ha₀.trans haa')
  rw [le_iff, toRat_div hprec ha hb hne, toRat_div hprec ha' hb hne]
  exact rounded_mono (by decide) hprec (div_nonneg ha₀ hb₀) (div_le_div_of_nonneg_right haa' hb₀)

end Correct

/-! ## Quantization -/

theorem coefficient_rescale (h : d.Nonneg) (e : Int) :
    ((d.rescale e).coefficient : Int) = nearest (d.toRat / 10 ^ e) := by
  unfold rescale
  split
  · rename_i he
    obtain ⟨k, hk⟩ : ∃ k : Nat, d.exponent - e = k := ⟨(d.exponent - e).toNat, by omega⟩
    have hexact : d.toRat / 10 ^ e = ((d.coefficient * 10 ^ k : Nat) : Int) := by
      rw [toRat_of_nonneg h, mul_div_assoc, ← zpow_sub₀ (by norm_num), hk, zpow_natCast]
      push_cast
      rfl
    rw [hexact, nearest_intCast, hk, Int.toNat_natCast]
  · obtain ⟨k, hk⟩ : ∃ k : Nat, e - d.exponent = k := ⟨(e - d.exponent).toNat, by omega⟩
    have hexact : d.toRat / 10 ^ e = (d.coefficient : ℚ) / (10 ^ k : Nat) := by
      rw [toRat_of_nonneg h, show e =
        d.exponent + k by omega, zpow_add₀ (by norm_num), zpow_natCast]
      push_cast
      field_simp
    rw [hexact, ← roundHalfEven_eq _ (by positivity), hk, Int.toNat_natCast]

theorem rescale_nonneg (h : d.Nonneg) (e : Int) : (d.rescale e).Nonneg := by
  have hzero : d.coefficient = 0 → (d.rescale e).coefficient = 0 := by
    intro hcoefficient
    unfold rescale
    split <;> simp [hcoefficient, roundHalfEven]
  have hsign : (d.rescale e).negative = d.negative := by
    unfold rescale
    split <;> rfl
  intro hnegative
  exact hzero (h (hsign ▸ hnegative))

theorem quantize_eq_some_iff {e : Int} {r : Decimal} (hne : d.coefficient ≠ 0) :
    d.quantize prec e = some r ↔
      r = d.rescale e ∧ d.exponent + (numDigits d.coefficient : Int) - e ≤ prec ∧
      numDigits r.coefficient ≤ prec := by
  unfold quantize
  dsimp only
  rw [if_neg hne]
  constructor
  · intro h
    split_ifs at h with hwide hdigits
    cases h
    exact ⟨rfl, not_lt.mp hwide, not_lt.mp hdigits⟩
  · rintro ⟨rfl, hwide, hdigits⟩
    rw [if_neg (not_lt.mpr hwide), if_neg (not_lt.mpr hdigits)]

theorem quantize_zero {e : Int} (h : d.coefficient = 0) :
    ∃ r, d.quantize prec e = some r ∧ r.toRat = 0 := by
  have hnonneg : Nonneg ⟨d.negative, 0, e⟩ := fun _ => rfl
  have hfix : fix prec ⟨d.negative, 0, e⟩ = ⟨d.negative, 0, e⟩ := by
    unfold fix
    dsimp only
    rw [if_pos (by simp [numDigits])]
  refine ⟨⟨d.negative, 0, e⟩, ?_, ?_⟩
  · unfold quantize
    rw [if_pos h, hfix]
  · rw [toRat_of_nonneg hnonneg]
    simp

theorem coefficient_ne_of_le {d' : Decimal} (h : d.Nonneg) (hle : d ≤ d')
    (hne : d.coefficient ≠ 0) :
    d'.coefficient ≠ 0 := by
  have hpos : 0 < d.toRat := by
    rw [toRat_of_nonneg h]
    positivity
  have h' : d'.Nonneg := nonneg_iff.mpr ((nonneg_iff.mp h).trans hle)
  intro hnil
  have hpos' : 0 < d'.toRat := hpos.trans_le hle
  rw [toRat_of_nonneg h', hnil, Nat.cast_zero, zero_mul] at hpos'
  exact hpos'.false

theorem adjusted_mono {d' : Decimal} (h : d.Nonneg) (hle : d ≤ d') (hne : d.coefficient ≠ 0) :
    d.adjusted ≤ d'.adjusted := by
  have hpos : 0 < d.toRat := by
    rw [toRat_of_nonneg h]
    positivity
  have hlog := @Int.log_mono_right ℚ _ _ _ _ 10 _ _ hpos hle
  rw [log_toRat h hne, log_toRat (nonneg_iff.mpr ((nonneg_iff.mp h).trans hle))
    (coefficient_ne_of_le h hle hne)] at hlog
  unfold adjusted
  omega

/-- A result below one that does not overflow does not overflow. -/
theorem overflows_mono {d' : Decimal} {emax : Int} (h : d.Nonneg) (hle : d ≤ d')
    (hd' : d'.overflows emax = false) :
    d.overflows emax = false := by
  by_cases hne : d.coefficient = 0
  · simp [overflows, hne]
  · have hadjusted := adjusted_mono h hle hne
    simp only [overflows, coefficient_ne_of_le h hle hne, ne_eq, not_false_eq_true, decide_true,
      Bool.true_and,
      decide_eq_false_iff_not, not_lt] at hd'
    simp only [overflows, hne, ne_eq, not_false_eq_true, decide_true, Bool.true_and,
      decide_eq_false_iff_not, not_lt]
    exact hadjusted.trans hd'

theorem quantize_nonneg {e : Int} {r : Decimal} (h : d.Nonneg) (hr : d.quantize prec e = some r) :
    r.Nonneg := by
  by_cases hzero : d.coefficient = 0
  · obtain ⟨r', hr', hvalue⟩ := @quantize_zero d prec e hzero
    cases hr.symm.trans hr'
    exact nonneg_iff.mpr hvalue.ge
  · obtain ⟨rfl, -, -⟩ := (quantize_eq_some_iff hzero).mp hr
    exact rescale_nonneg h e

/-- **Quantization is monotone**, and does not fail below a decimal on which it does not fail. -/
theorem quantize_mono {d' r' : Decimal} {e : Int} (h : d.Nonneg) (hle : d ≤ d')
    (hr' : d'.quantize prec e = some r') :
    ∃ r, d.quantize prec e = some r ∧ r ≤ r' := by
  have h' : d'.Nonneg := nonneg_iff.mpr ((nonneg_iff.mp h).trans hle)
  by_cases hzero : d.coefficient = 0
  · obtain ⟨r, hr, hvalue⟩ := @quantize_zero d prec e hzero
    refine ⟨r, hr, ?_⟩
    rw [le_iff, hvalue]
    exact nonneg_iff.mp (quantize_nonneg h' hr')
  · have hzero' := coefficient_ne_of_le h hle hzero
    obtain ⟨rfl, hwide', hdigits'⟩ := (quantize_eq_some_iff hzero').mp hr'
    have hcoefficient : (d.rescale e).coefficient ≤ (d'.rescale e).coefficient := by
      have hscaled : d.toRat / 10 ^ e ≤ d'.toRat / 10 ^ e :=
        div_le_div_of_nonneg_right hle (by positivity)
      have hnearest := nearest_mono hscaled
      rw [← coefficient_rescale h, ← coefficient_rescale h'] at hnearest
      exact Int.ofNat_le.mp hnearest
    have hexponent : ∀ d : Decimal, (d.rescale e).exponent = e := by
      intro d
      unfold rescale
      split <;> rfl
    refine ⟨_, (quantize_eq_some_iff hzero).mpr ⟨rfl, ?_,
      (numDigits_mono hcoefficient).trans hdigits'⟩, ?_⟩
    · have hadjusted := adjusted_mono h hle hzero
      unfold adjusted at hadjusted
      omega
    · rw [le_iff, toRat_of_nonneg (rescale_nonneg h e), toRat_of_nonneg (rescale_nonneg h' e),
        hexponent, hexponent]
      gcongr

end Arith.Decimal
