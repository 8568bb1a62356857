import Mathlib.Algebra.Order.Round
import Mathlib.Data.Int.Log
import Mathlib.Tactic.Linarith
import Mathlib.Tactic.Ring

/-!
# Rounding half to even

* `nearest` : the nearest integer, halves to the even one (`nearest_mono`; `nearest_of_lt_half`,
  `nearest_of_half_lt`: it is constant between two neighbouring halves; `nearest_error`: it is half
  a unit away at most);
* `rounded b p` : a number rounded to `p` digits of base `b`, that is to a multiple of `b ^ unit b p
  x` (`rounded_mono`, `rounded_eq_self`), with a relative error of half a unit of the last digit at
  most (`rounded_error`).
-/

namespace Rounding

variable {K : Type} [Field K] [LinearOrder K] [FloorRing K] {x y : K}

/-! ## The nearest integer -/

def nearest (x : K) : ℤ :=
  if Int.fract x < 1 / 2 then ⌊x⌋ else if 1 / 2 < Int.fract x then ⌊x⌋ + 1 else if Even ⌊x⌋ then ⌊x⌋
    else ⌊x⌋ + 1

theorem floor_le_nearest (x : K) : ⌊x⌋ ≤ nearest x := by
  unfold nearest
  split_ifs <;> omega

theorem nearest_le_floor_add_one (x : K) : nearest x ≤ ⌊x⌋ + 1 := by
  unfold nearest
  split_ifs <;> omega

theorem nearest_nonneg (h : 0 ≤ x) : 0 ≤ nearest x :=
  (Int.floor_nonneg.mpr h).trans (floor_le_nearest x)

variable [IsStrictOrderedRing K]

theorem nearest_intCast (n : ℤ) : nearest (n : K) = n := by
  unfold nearest
  rw [Int.fract_intCast, Int.floor_intCast, if_pos (by positivity)]

theorem nearest_mono (h : x ≤ y) : nearest x ≤ nearest y := by
  rcases (Int.floor_le_floor h).lt_or_eq with hlt | heq
  · calc nearest x ≤ ⌊x⌋ + 1 := nearest_le_floor_add_one x
      _ ≤ ⌊y⌋ := hlt
      _ ≤ nearest y := floor_le_nearest y
  · have hfract : Int.fract x ≤ Int.fract y := by
      unfold Int.fract
      rw [heq]
      linarith
    unfold nearest
    rw [heq]
    split_ifs <;> first | omega | exact absurd hfract (by linarith)

/-- Below the half, down. -/
theorem nearest_of_lt_half {k : ℤ} (hk : (k : K) ≤ x) (h : x < k + 1 / 2) : nearest x = k := by
  have hfloor : ⌊x⌋ = k := Int.floor_eq_iff.mpr ⟨hk, by linarith⟩
  unfold nearest
  rw [Int.fract, hfloor, if_pos (by linarith)]

/-- Above the half, up. -/
theorem nearest_of_half_lt {k : ℤ} (h : (k : K) + 1 / 2 < x) (hk : x < k + 1) :
    nearest x = k + 1 := by
  have hfloor : ⌊x⌋ = k := Int.floor_eq_iff.mpr ⟨by linarith, hk⟩
  unfold nearest
  rw [Int.fract, hfloor, if_neg (by linarith), if_pos (by linarith)]

/-- Between two neighbouring halves the nearest integer is the same. -/
theorem nearest_congr {m : ℤ} (hx : (m : K) / 2 < x) (hx' : x < (m + 1) / 2) (hy : (m : K) / 2 < y)
    (hy' : y < (m + 1) / 2) : nearest x = nearest y := by
  obtain ⟨k, rfl | rfl⟩ := m.even_or_odd'
  · push_cast at hx hx' hy hy'
    rw [@nearest_of_lt_half K _ _ _ _ _ k (by linarith) (by linarith),
      @nearest_of_lt_half K _ _ _ _ _ k (by linarith) (by linarith)]
  · push_cast at hx hx' hy hy'
    rw [@nearest_of_half_lt K _ _ _ _ _ k (by linarith) (by linarith),
      @nearest_of_half_lt K _ _ _ _ _ k (by linarith) (by linarith)]

theorem nearest_le_of_le {n : ℤ} (h : x ≤ n) : nearest x ≤ n :=
  (nearest_mono h).trans_eq (nearest_intCast n)

theorem le_nearest_of_le {n : ℤ} (h : (n : K) ≤ x) : n ≤ nearest x :=
  (nearest_intCast n).symm.trans_le (nearest_mono h)

theorem nearest_error (x : K) : |(nearest x : K) - x| ≤ 1 / 2 := by
  have hlow := Int.fract_nonneg x
  have hhigh := Int.fract_lt_one x
  have hfloor : (⌊x⌋ : K) = x - Int.fract x := (Int.self_sub_fract x).symm
  unfold nearest
  rw [abs_le]
  split_ifs
  all_goals
    push_cast
    rw [hfloor]
    constructor <;> linarith

/-! ## A number of digits -/

/-- The exponent of the last of `p` digits. -/
def unit (b p : ℕ) (x : K) : ℤ := Int.log b x + 1 - p

def rounded (b p : ℕ) (x : K) : K := nearest (x / (b : K) ^ unit b p x) * (b : K) ^ unit b p x

variable {b p : ℕ}

omit [FloorRing K] in
theorem base_pos (hb : 1 < b) : (0 : K) < b := Nat.cast_pos.mpr (Nat.zero_lt_of_lt hb)

theorem log_eq_of_mem {k : ℤ} (hb : 1 < b) (h : (b : K) ^ k ≤ x) (h' : x < (b : K) ^ (k + 1)) :
    Int.log b x = k := by
  have hx : 0 < x := (zpow_pos (base_pos hb) k).trans_le h
  have hle : k ≤ Int.log b x := (Int.zpow_le_iff_le_log hb hx).mp h
  have hlt : Int.log b x < k + 1 := (Int.lt_zpow_iff_log_lt hb hx).mp h'
  omega

theorem rounded_zero : rounded b p (0 : K) = 0 := by
  have hzero : nearest (0 : K) = 0 := by simpa using nearest_intCast (K := K) 0
  unfold rounded
  rw [zero_div, hzero, Int.cast_zero, zero_mul]

theorem rounded_nonneg (h : 0 ≤ x) : 0 ≤ rounded b p x := by
  have hunit : (0 : K) ≤ (b : K) ^ unit b p x := zpow_nonneg (Nat.cast_nonneg b) _
  exact mul_nonneg (Int.cast_nonneg (nearest_nonneg (div_nonneg h hunit))) hunit

/-- What is a multiple of the unit stays as it is. -/
theorem rounded_eq_self {n e : ℤ} (hb : 1 < b) (heq : x = n * (b : K) ^ e) (he : unit b p x ≤ e) :
    rounded b p x = x := by
  have hbase : (b : K) ≠ 0 := (base_pos hb).ne'
  have hunit : (b : K) ^ unit b p x ≠ 0 := zpow_ne_zero _ hbase
  obtain ⟨k, hk⟩ : ∃ k : ℕ, e - unit b p x = k := ⟨(e - unit b p x).toNat, by omega⟩
  have hscaled : x / (b : K) ^ unit b p x = ((n * (b : ℤ) ^ k : ℤ) : K) := by
    rw [div_eq_iff hunit, Int.cast_mul, Int.cast_pow, Int.cast_natCast, mul_assoc,
      ← zpow_natCast, ← hk,
      ← zpow_add₀ hbase]
    simpa using heq
  unfold rounded
  rw [hscaled, nearest_intCast, ← hscaled]
  exact div_mul_cancel₀ x hunit

/-- The error is half a unit of the last digit at most, which is `b ^ (1 - p)` of the number. -/
theorem rounded_error (hb : 1 < b) (hx : 0 ≤ x) :
    |rounded b p x - x| ≤ (b : K) ^ (1 - p : ℤ) / 2 * x := by
  rcases hx.eq_or_lt with rfl | hx
  · rw [rounded_zero, sub_zero, abs_zero, mul_zero]
  have hbase : (0 : K) < b := base_pos hb
  have hunit : 0 < (b : K) ^ unit b p x := zpow_pos hbase _
  have herror := nearest_error (x / (b : K) ^ unit b p x)
  have hpower : (b : K) ^ unit b p x = (b : K) ^ (1 - p : ℤ) * (b : K) ^ Int.log b x := by
    rw [← zpow_add₀ hbase.ne']
    congr 1
    unfold unit
    omega
  have hlog := Int.zpow_log_le_self hb hx
  have hdigit : 0 ≤ (b : K) ^ (1 - p : ℤ) := zpow_nonneg hbase.le _
  calc |rounded b p x - x|
      = |(nearest (x / (b : K) ^ unit b p x) : K) - x / (b : K) ^ unit b p x|
        * (b : K) ^ unit b p x := by
        rw [← abs_of_pos hunit, ← abs_mul, sub_mul, abs_of_pos hunit,
          div_mul_cancel₀ x hunit.ne', rounded]
    _ ≤ 1 / 2 * (b : K) ^ unit b p x := mul_le_mul_of_nonneg_right herror hunit.le
    _ = (b : K) ^ (1 - p : ℤ) / 2 * (b : K) ^ Int.log b x := by
        rw [hpower]
        ring
    _ ≤ (b : K) ^ (1 - p : ℤ) / 2 * x :=
      mul_le_mul_of_nonneg_left hlog (div_nonneg hdigit zero_le_two)

/-- A result of more digits is the next power of the base. -/
theorem rounded_le_zpow (hb : 1 < b) (x : K) : rounded b p x ≤ (b : K) ^ (Int.log b x + 1) := by
  have hbase : (0 : K) < b := base_pos hb
  have hunit : 0 < (b : K) ^ unit b p x := zpow_pos hbase _
  have hlt := Int.lt_zpow_succ_log_self hb x
  have hpower : (b : K) ^ (Int.log b x + 1) = ((b ^ p : ℤ) : K) * (b : K) ^ unit b p x := by
    rw [Int.cast_pow, Int.cast_natCast, ← zpow_natCast, ← zpow_add₀ hbase.ne']
    congr 1
    unfold unit
    omega
  have hnearest : nearest (x / (b : K) ^ unit b p x) ≤ (b ^ p : ℤ) := by
    apply nearest_le_of_le
    rw [div_le_iff₀ hunit, ← hpower]
    exact hlt.le
  unfold rounded
  rw [hpower]
  exact mul_le_mul_of_nonneg_right (Int.cast_le.mpr hnearest) hunit.le

theorem zpow_log_le_rounded (hb : 1 < b) (hp : 0 < p) (hx : 0 < x) :
    (b : K) ^ Int.log b x ≤ rounded b p x := by
  have hbase : (0 : K) < b := base_pos hb
  have hunit : 0 < (b : K) ^ unit b p x := zpow_pos hbase _
  have hle := Int.zpow_log_le_self hb hx
  have hpower : (b : K) ^ Int.log b x = ((b ^ (p - 1) : ℤ) : K) * (b : K) ^ unit b p x := by
    rw [Int.cast_pow, Int.cast_natCast, ← zpow_natCast, ← zpow_add₀ hbase.ne']
    congr 1
    unfold unit
    omega
  have hnearest : (b ^ (p - 1) : ℤ) ≤ nearest (x / (b : K) ^ unit b p x) := by
    apply le_nearest_of_le
    rw [le_div_iff₀ hunit, ← hpower]
    exact hle
  unfold rounded
  rw [hpower]
  exact mul_le_mul_of_nonneg_right (Int.cast_le.mpr hnearest) hunit.le

/-- **Rounding is monotone.** -/
theorem rounded_mono (hb : 1 < b) (hp : 0 < p) (hx : 0 ≤ x) (h : x ≤ y) :
    rounded b p x ≤ rounded b p y := by
  rcases hx.eq_or_lt with rfl | hx
  · rw [rounded_zero]
    exact rounded_nonneg h
  rcases (Int.log_mono_right hx h).lt_or_eq with hlt | heq
  · calc rounded b p x ≤ (b : K) ^ (Int.log b x + 1) := rounded_le_zpow hb x
      _ ≤ (b : K) ^ Int.log b y := zpow_le_zpow_right₀ (by exact_mod_cast hb.le) hlt
      _ ≤ rounded b p y := zpow_log_le_rounded hb hp (hx.trans_le h)
  · have hunit : unit b p x = unit b p y := by
      unfold unit
      rw [heq]
    have hpos : 0 < (b : K) ^ unit b p y := zpow_pos (base_pos hb) _
    unfold rounded
    rw [hunit]
    have hnearest := nearest_mono (div_le_div_of_nonneg_right h hpos.le)
    exact mul_le_mul_of_nonneg_right (Int.cast_le.mpr hnearest) hpos.le

end Rounding
