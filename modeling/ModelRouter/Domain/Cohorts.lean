import Mathlib.Order.Interval.Finset.Nat
import ModelRouter.Domain.Strategy
import ModelRouter.Lib.Apportion

/-!
# The cohorts of an experiment

`cohortOf` : the arm of a subject whose digest begins with `h`, by exact arithmetic. The arms divide
the prefixes among each other in proportion to their weights (`cohort_proportional`).
-/

namespace ModelRouter
open Apportion

/-- The arm that `assign_experiment_cohort` gives a subject whose digest begins with the hex digits
of `h`, when bucket and threshold are computed exactly. -/
def cohortOf (experiment : ExperimentPolicy) (h : Nat) : String := armAt id experiment h

def weights (arms : List ExperimentArm) : List Nat := arms.map (·.weight)

/-! ## The loop over the arms -/

/-- The loop stops at the arm in whose share of the weight the threshold falls. -/
theorem cohortArm_eq_some {threshold : ℚ} {arms : List ExperimentArm} {cumulative i : Nat}
    (hi : i < arms.length) (hlow : ((cumulative + before (weights arms) i : Nat) : ℚ) ≤ threshold)
    (hhigh : threshold < (cumulative + before (weights arms) (i + 1) : Nat)) :
    cohortArm threshold cumulative arms = some arms[i].modelAlias := by
  induction arms generalizing cumulative i with
  | nil => exact absurd hi (Nat.not_lt_zero i)
  | cons arm arms ih =>
      unfold cohortArm
      cases i with
      | zero =>
          rw [if_pos]
          · rfl
          · simpa [before, weights] using hhigh
      | succ i =>
          have hbefore : ∀ k, before (weights (arm :: arms)) (k + 1) =
              arm.weight + before (weights arms) k := by
            intro k
            simp [before, weights]
          rw [hbefore, ← Nat.add_assoc] at hlow hhigh
          have hpassed : ((cumulative + arm.weight : Nat) : ℚ) ≤ threshold :=
            le_trans (Nat.cast_le.mpr (Nat.le_add_right _ _)) hlow
          rw [if_neg (not_lt.mpr hpassed)]
          exact ih (Nat.lt_of_succ_lt_succ hi) hlow hhigh

/-- It passes every arm at a threshold beyond their weights. -/
theorem cohortArm_eq_none {threshold : ℚ} {arms : List ExperimentArm} {cumulative : Nat}
    (h : ((cumulative + (weights arms).sum : Nat) : ℚ) ≤ threshold) :
      cohortArm threshold cumulative arms = none := by
  induction arms generalizing cumulative with
  | nil => rfl
  | cons arm arms ih =>
      rw [weights, List.map_cons, List.sum_cons, ← Nat.add_assoc] at h
      have hpassed : ((cumulative + arm.weight : Nat) : ℚ) ≤ threshold :=
        le_trans (Nat.cast_le.mpr (Nat.le_add_right _ _)) h
      unfold cohortArm
      rw [if_neg (not_lt.mpr hpassed)]
      exact ih h

/-! ## The shares -/

variable {experiment : ExperimentPolicy} {h i : Nat}

theorem weights_sum_pos (experiment : ExperimentPolicy) : 0 < (weights experiment.arms).sum := by
  obtain ⟨arm, arms, harms⟩ := List.exists_cons_of_ne_nil (arms_ne experiment)
  rw [harms, weights, List.map_cons, List.sum_cons]
  have := arm.weight_pos
  omega

/-- The first prefix of the arm `i`. -/
def armBound (experiment : ExperimentPolicy) (i : Nat) : Nat :=
  bound (weights experiment.arms) hashSpace i

theorem cohortOf_eq (hi : i < experiment.arms.length) (hlow : armBound experiment i ≤ h)
    (hhigh : h < armBound experiment (i + 1)) :
      cohortOf experiment h = experiment.arms[i].modelAlias := by
  have hsum := weights_sum_pos experiment
  have hlength : (weights experiment.arms).length = experiment.arms.length := List.length_map _
  have hspace : 0 < hashSpace := by decide
  have hlow' := (bound_le_iff hsum hspace (by omega)).mp hlow
  have hassign : cohortOf experiment h =
      (cohortArm (h / hashSpace * (weights experiment.arms).sum) 0 experiment.arms).getD
      (experiment.arms.getLast (arms_ne experiment)).modelAlias := by
    unfold cohortOf armAt ExperimentPolicy.totalWeight weights
    dsimp only [id]
    cases cohortArm (h / hashSpace * (experiment.arms.map (·.weight)).sum) 0 experiment.arms <;> rfl
  rcases (Nat.succ_le_of_lt hi).lt_or_eq with hnext | hlast
  · have hnext' : i + 1 < (weights experiment.arms).length := by omega
    have hhigh' := mt (bound_le_iff (h := h) hsum hspace hnext').mpr (not_le.mpr hhigh)
    rw [hassign, cohortArm_eq_some hi (by rwa [Nat.zero_add]) (by rwa [Nat.zero_add, ← not_le]),
      Option.getD_some]
  · -- the last arm takes what is below the total weight, and the overflow
    by_cases hbelow : (h / hashSpace * (weights experiment.arms).sum : ℚ) <
      (weights experiment.arms).sum
    · have htotal : before (weights experiment.arms) (i + 1) = (weights experiment.arms).sum := by
        rw [show i + 1 = (weights experiment.arms).length by omega, before_length]
      rw [hassign, cohortArm_eq_some hi (by rwa [Nat.zero_add]) (by rwa [Nat.zero_add, htotal]),
        Option.getD_some]
    · rw [hassign, cohortArm_eq_none (by rw [Nat.zero_add]; exact not_lt.mp hbelow),
        Option.getD_none, List.getLast_eq_getElem]
      have hindex : experiment.arms.length - 1 = i := by omega
      simp only [hindex]

/-- Every prefix is in the interval of one arm. -/
theorem exists_arm (experiment : ExperimentPolicy) (hh : h ≤ hashSpace) :
    ∃ i < experiment.arms.length, armBound experiment i ≤ h ∧ h < armBound experiment (i + 1) := by
  have hne : weights experiment.arms ≠ [] :=
    fun hnil => arms_ne experiment (List.map_eq_nil_iff.mp hnil)
  obtain ⟨i, hi, hpart⟩ := exists_part hne hh
  exact ⟨i, by simpa [weights] using hi, hpart⟩

/-- The arms have different aliases, so an arm gets the prefixes of its interval only. -/
theorem cohortOf_eq_iff (hi : i < experiment.arms.length) (hh : h ≤ hashSpace) :
    cohortOf experiment h = experiment.arms[i].modelAlias ↔ armBound experiment i ≤ h ∧
    h < armBound experiment (i + 1) := by
  constructor
  · intro halias
    obtain ⟨j, hj, hlow, hhigh⟩ := exists_arm experiment hh
    have hsame : j = i := by
      apply (List.Nodup.getElem_inj_iff experiment.unique_arms).mp
      rw [List.getElem_map, List.getElem_map, ← cohortOf_eq hj hlow hhigh, halias]
      all_goals rwa [List.length_map]
    exact hsame ▸ ⟨hlow, hhigh⟩
  · rintro ⟨hlow, hhigh⟩
    exact cohortOf_eq hi hlow hhigh

/-- How many prefixes the arm gets. -/
def cohortSize (experiment : ExperimentPolicy) (modelAlias : String) : Nat :=
  ((Finset.range (hashSpace + 1)).filter fun h => cohortOf experiment h = modelAlias).card

theorem cohortSize_eq (hi : i < experiment.arms.length) :
    cohortSize experiment experiment.arms[i].modelAlias =
      armBound experiment (i + 1) - armBound experiment i := by
  have hlast : armBound experiment (i + 1) ≤ hashSpace + 1 := by
    have hlength : (weights experiment.arms).length = experiment.arms.length := List.length_map _
    rw [← @bound_length (weights experiment.arms) hashSpace]
    exact bound_mono (weights_sum_pos experiment) (by omega) le_rfl
  have hinterval : ((Finset.range (hashSpace + 1)).filter fun h =>
      cohortOf experiment h = experiment.arms[i].modelAlias) =
      Finset.Ico (armBound experiment i) (armBound experiment (i + 1)) := by
    ext h
    rw [Finset.mem_filter, Finset.mem_range, Finset.mem_Ico]
    constructor
    · rintro ⟨hh, halias⟩
      exact (cohortOf_eq_iff hi (by omega)).mp halias
    · intro hpart
      exact ⟨by omega, (cohortOf_eq_iff hi (by omega)).mpr hpart⟩
  rw [cohortSize, hinterval, Nat.card_Ico]

/-- **The allocation is proportional.** Every prefix goes to exactly one arm; the arms' prefixes are
intervals, one after the other in the order of the arms, that cover all prefixes; and the size of an
interval differs by less than two from the arm's share. -/
theorem cohort_proportional (experiment : ExperimentPolicy) :
    (∀ h < 2 ^ 32, ∃! arm, arm ∈ experiment.arms ∧ cohortOf experiment h = arm.modelAlias) ∧
      (∃ bounds : Nat → Nat, bounds 0 = 0 ∧ bounds experiment.arms.length = 2 ^ 32 ∧
        (∀ i < experiment.arms.length, bounds i ≤ bounds (i + 1)) ∧
        ∀ i (hi : i < experiment.arms.length), ∀ h < 2 ^ 32,
          cohortOf experiment h = experiment.arms[i].modelAlias ↔ bounds i ≤ h ∧
          h < bounds (i + 1)) ∧
      ∀ arm ∈ experiment.arms, |(cohortSize experiment arm.modelAlias : ℚ) -
        2 ^ 32 * arm.weight / (experiment.arms.map (·.weight)).sum| < 2 := by
  have hspace : hashSpace + 1 = 2 ^ 32 := by decide
  have hlength : (weights experiment.arms).length = experiment.arms.length := List.length_map _
  have hsum := weights_sum_pos experiment
  refine ⟨fun h hh => ?_, ⟨armBound experiment, ?_, ?_, fun i hi => ?_, fun i hi h hh => ?_⟩,
    fun arm harm => ?_⟩
  · obtain ⟨i, hi, hlow, hhigh⟩ := exists_arm experiment (by omega : h ≤ hashSpace)
    refine ⟨experiment.arms[i], ⟨List.getElem_mem hi, cohortOf_eq hi hlow hhigh⟩, ?_⟩
    rintro other ⟨hother, halias⟩
    exact List.inj_on_of_nodup_map experiment.unique_arms hother (List.getElem_mem hi)
      (halias.symm.trans (cohortOf_eq hi hlow hhigh))
  · exact bound_zero fun hnil => arms_ne experiment (List.map_eq_nil_iff.mp hnil)
  · rw [armBound, ← hlength, bound_length, hspace]
  · exact bound_mono hsum (Nat.le_succ i) (by omega)
  · exact cohortOf_eq_iff hi (by omega)
  · obtain ⟨i, hi, rfl⟩ := List.getElem_of_mem harm
    have herror := @part_error (weights experiment.arms) hashSpace i hsum (by omega)
    have hweight : (weights experiment.arms)[i] = experiment.arms[i].weight := List.getElem_map _
    rw [hweight] at herror
    rw [cohortSize_eq hi]
    have hspace' : (hashSpace : ℚ) + 1 = 2 ^ 32 := by exact_mod_cast hspace
    rw [← hspace']
    exact herror

end ModelRouter
