import Mathlib.Algebra.Order.BigOperators.Group.List
import Mathlib.Algebra.Order.Floor.Semiring
import Mathlib.Data.Rat.Floor
import Mathlib.Tactic.FieldSimp
import Mathlib.Tactic.Linarith
import Mathlib.Tactic.Ring

/-!
# Apportionment

The values `0`, .., `m` are divided among parts in proportion to their weights: the value `h` goes
to the part in whose share of the total weight `h / m` of it falls, and `m` itself to the last one.

* `bound weights m i` : the first value of part `i` (`bound_le_iff`); the parts are intervals one
  after the other that cover the values (`bound_mono`, `exists_part`);
* `part_error` : the number of values of a part differs by less than two from its share.
-/

namespace Apportion

/-- The weight of the parts before the `i`-th. -/
def before (weights : List ℕ) (i : ℕ) : ℕ := (weights.take i).sum

def bound (weights : List ℕ) (m i : ℕ) : ℕ :=
  if i < weights.length then ⌈(before weights i * m : ℚ) / weights.sum⌉₊ else m + 1

variable {weights : List ℕ} {m i j h : ℕ}

theorem before_succ (hi : i < weights.length) :
    before weights (i + 1) = before weights i + weights[i] := by
  unfold before
  rw [List.take_add_one, List.getElem?_eq_getElem hi, Option.toList_some, List.sum_append,
    List.sum_singleton]

theorem before_mono (hij : i ≤ j) : before weights i ≤ before weights j :=
  ((List.take_prefix_take_left hij).sublist).sum_le_sum fun _ _ => Nat.zero_le _

theorem before_length : before weights weights.length = weights.sum := by
  rw [before, List.take_length]

theorem bound_zero (hne : weights ≠ []) : bound weights m 0 = 0 := by
  rw [bound, if_pos (List.length_pos_iff.mpr hne)]
  simp [before]

theorem bound_length : bound weights m weights.length = m + 1 := by
  rw [bound, if_neg (Nat.lt_irrefl _)]

theorem share_length (hsum : weights.sum ≠ 0) :
    (before weights weights.length * m : ℚ) / weights.sum = m := by
  have hsum' : (weights.sum : ℚ) ≠ 0 := Nat.cast_ne_zero.mpr hsum
  rw [before_length, mul_comm, mul_div_assoc, div_self hsum', mul_one]

section
variable (hsum : 0 < weights.sum)
include hsum

/-- The value `h` is not before part `i` exactly where `h / m` of the total weight is not before its
share. -/
theorem bound_le_iff (hm : 0 < m) (hi : i < weights.length) :
    bound weights m i ≤ h ↔ (before weights i : ℚ) ≤ h / m * weights.sum := by
  have hsum' : (0 : ℚ) < weights.sum := Nat.cast_pos.mpr hsum
  have hm' : (0 : ℚ) < m := Nat.cast_pos.mpr hm
  rw [bound, if_pos hi, Nat.ceil_le, div_le_iff₀ hsum', div_mul_eq_mul_div, le_div_iff₀ hm']

/-- A bound is the end of the share before it, rounded up; the last one is one more. -/
theorem bound_near (hi : i ≤ weights.length) :
    (before weights i * m : ℚ) / weights.sum ≤ bound weights m i ∧
      (bound weights m i : ℚ) ≤ before weights i * m / weights.sum + 1 ∧
        (i < weights.length → (bound weights m i : ℚ) <
          before weights i * m / weights.sum + 1) := by
  have hnonneg : (0 : ℚ) ≤ before weights i * m / weights.sum := by positivity
  rcases hi.lt_or_eq with hlt | rfl
  · have hceil := Nat.ceil_lt_add_one hnonneg
    rw [bound, if_pos hlt]
    exact ⟨Nat.le_ceil _, hceil.le, fun _ => hceil⟩
  · rw [bound_length, share_length hsum.ne']
    push_cast
    exact ⟨by linarith, le_refl _, fun hlt => absurd hlt (Nat.lt_irrefl _)⟩

theorem bound_mono (hij : i ≤ j) (hj : j ≤ weights.length) :
    bound weights m i ≤ bound weights m j := by
  have hshare : (before weights i * m : ℚ) / weights.sum ≤ before weights j * m / weights.sum := by
    have hbefore : (before weights i : ℚ) ≤ before weights j := Nat.cast_le.mpr (before_mono hij)
    gcongr
  rcases hj.lt_or_eq with hlt | rfl
  · rw [bound, if_pos (hij.trans_lt hlt), Nat.ceil_le]
    exact hshare.trans (bound_near hsum hlt.le).1
  · rcases hij.lt_or_eq with hlt | rfl
    · have hnear := (@bound_near weights m i hsum hlt.le).2.2 hlt
      rw [bound_length]
      rw [share_length hsum.ne'] at hshare
      have hle : (bound weights m i : ℚ) < (m + 1 : ℕ) := by
        push_cast
        linarith
      exact (Nat.cast_lt.mp hle).le
    · exact le_refl _

/-- **A part gets its share**, up to two values. -/
theorem part_error (hi : i < weights.length) :
    |((bound weights m (i + 1) - bound weights m i : ℕ) : ℚ) - (m + 1) * weights[i] / weights.sum|
      < 2 := by
  have hsum' : (0 : ℚ) < weights.sum := Nat.cast_pos.mpr hsum
  obtain ⟨hlow, -, hhigh⟩ := @bound_near weights m i hsum hi.le
  obtain ⟨hlow', hhigh', -⟩ := @bound_near weights m (i + 1) hsum hi
  have hhigh := hhigh hi
  have hstep : (before weights (i + 1) * m : ℚ) / weights.sum =
      before weights i * m / weights.sum + weights[i] * m / weights.sum := by
    rw [before_succ hi]
    push_cast
    ring
  have hshare : ((m : ℚ) + 1) * weights[i] / weights.sum =
      weights[i] * m / weights.sum + weights[i] / weights.sum := by ring
  have hpart : (0 : ℚ) ≤ weights[i] / weights.sum ∧ (weights[i] : ℚ) / weights.sum ≤ 1 := by
    have hle : weights[i] ≤ weights.sum := List.le_sum_of_mem (List.getElem_mem hi)
    constructor
    · positivity
    · rw [div_le_one hsum']
      exact_mod_cast hle
  rw [Nat.cast_sub (bound_mono hsum (Nat.le_succ i) hi), hshare, abs_lt]
  rw [hstep] at hlow' hhigh'
  constructor <;> linarith [hpart.1, hpart.2]

end

/-- Every value is in a part. -/
theorem exists_part (hne : weights ≠ []) (hh : h ≤ m) :
    ∃ i < weights.length, bound weights m i ≤ h ∧ h < bound weights m (i + 1) := by
  have hsearch : ∀ n ≤ weights.length, h < bound weights m n →
      ∃ i < n, bound weights m i ≤ h ∧ h < bound weights m (i + 1) := by
    intro n hn hlt
    induction n with
    | zero =>
        rw [bound_zero hne] at hlt
        exact absurd hlt (Nat.not_lt_zero h)
    | succ n ih =>
        by_cases hlow : bound weights m n ≤ h
        · exact ⟨n, Nat.lt_succ_self n, hlow, hlt⟩
        · obtain ⟨i, hi, hpart⟩ := ih (by omega) (by omega)
          exact ⟨i, by omega, hpart⟩
  exact hsearch _ le_rfl (by rw [bound_length]; omega)

end Apportion
