import Mathlib.Algebra.Order.Field.Basic
import Mathlib.Tactic.Linarith
import Mathlib.Tactic.Ring

/-!
# Relative errors

`RelClose ε x y` : `y` is `x` with a relative error of at most `ε`. Errors add up along a
computation (`RelClose.trans`), are kept by a product (`RelClose.mul_right`), and those of two terms
become one of the sum of their magnitudes (`RelClose.add`).
-/

namespace Rounding

variable {K : Type} [Field K] [LinearOrder K] [IsStrictOrderedRing K] {ε δ x x' y y' z : K}

def RelClose (ε x y : K) : Prop := |y - x| ≤ ε * |x|

namespace RelClose

theorem abs_le (h : RelClose ε x y) : |y| ≤ (1 + ε) * |x| := by
  have htriangle := abs_add_le (y - x) x
  rw [sub_add_cancel] at htriangle
  unfold RelClose at h
  linarith

theorem trans (hδ : 0 ≤ δ) (h : RelClose ε x y) (h' : RelClose δ y z) :
    RelClose (ε + δ * (1 + ε)) x z := by
  have htriangle := abs_add_le (z - y) (y - x)
  rw [sub_add_sub_cancel] at htriangle
  have habs := mul_le_mul_of_nonneg_left h.abs_le hδ
  unfold RelClose at h h' ⊢
  linarith

theorem mul_right (h : RelClose ε x y) (c : K) : RelClose ε (x * c) (y * c) := by
  unfold RelClose at h ⊢
  rw [← sub_mul, abs_mul, abs_mul, ← mul_assoc]
  exact mul_le_mul_of_nonneg_right h (abs_nonneg c)

/-- The sum of two terms, with an error of its own. -/
theorem add (hδ : 0 ≤ δ) (h : RelClose ε x y) (h' : RelClose ε x' y')
    (hsum : RelClose δ (y + y') z) :
    |z - (x + x')| ≤ (ε + δ * (1 + ε)) * (|x| + |x'|) := by
  have hterms : |y + y'| ≤ (1 + ε) * (|x| + |x'|) := by
    have htriangle := abs_add_le y y'
    have habs := h.abs_le
    have habs' := h'.abs_le
    linarith
  have hscaled := mul_le_mul_of_nonneg_left hterms hδ
  have houter := abs_add_le (z - (y + y')) (y - x + (y' - x'))
  have hinner := abs_add_le (y - x) (y' - x')
  rw [show z - (y + y') + (y - x + (y' - x')) = z - (x + x') by ring] at houter
  unfold RelClose at h h' hsum
  linarith

end RelClose

end Rounding
