import ModelRouter.Domain.Invocation

/-!
# The in-memory model health repository

Health is a counter of consecutive failures for each alias, `consecutiveFailures`, read against two
thresholds. `consecutiveFailures_recordOutcome_ne` : an outcome moves its own alias only;
`unavailable_recordOutcome` : an unavailable model leaves that status by a success and by nothing
else.
-/

namespace ModelRouter

/-- `_HEALTH_AFFECTING_STATUSES`. -/
def healthAffectingStatuses : List InvocationAttemptStatus :=
  [.throttled, .transientError, .timeout]

/-- An alias without an entry counts no failure. -/
structure InMemoryModelHealthRepository where
  degradedAfter : Nat := 3
  unavailableAfter : Nat := 5
  consecutiveFailures : String → Nat := fun _ => 0
  thresholds : 1 ≤ degradedAfter ∧ degradedAfter < unavailableAfter := by decide

namespace InMemoryModelHealthRepository

variable (repository : InMemoryModelHealthRepository)

def getHealth (modelAlias : String) : ModelHealthStatus :=
  let failures := repository.consecutiveFailures modelAlias
  if repository.unavailableAfter ≤ failures then .unavailable
  else if repository.degradedAfter ≤ failures then .degraded
  else .healthy

def setFailures (modelAlias : String) (failures : Nat) : InMemoryModelHealthRepository :=
  { repository with consecutiveFailures := Function.update repository.consecutiveFailures modelAlias failures }

def recordOutcome (modelAlias : String) (status : InvocationAttemptStatus) :
    InMemoryModelHealthRepository :=
  if status = .succeeded then repository.setFailures modelAlias 0
  else if status ∈ healthAffectingStatuses then
    repository.setFailures modelAlias (repository.consecutiveFailures modelAlias + 1)
  else repository

variable {repository}

theorem getHealth_unavailable_iff {modelAlias : String} :
    repository.getHealth modelAlias = .unavailable ↔
    repository.unavailableAfter ≤ repository.consecutiveFailures modelAlias := by
  unfold getHealth
  dsimp only
  by_cases h : repository.unavailableAfter ≤ repository.consecutiveFailures modelAlias
  · rw [if_pos h]
    exact iff_of_true rfl h
  · rw [if_neg h]
    refine iff_of_false ?_ h
    split <;> simp

theorem consecutiveFailures_recordOutcome_ne {modelAlias other : String}
    (status : InvocationAttemptStatus) (h : modelAlias ≠ other) :
    (repository.recordOutcome other status).consecutiveFailures modelAlias =
      repository.consecutiveFailures modelAlias := by
  unfold recordOutcome setFailures
  split
  · exact Function.update_of_ne h _ _
  · split
    · exact Function.update_of_ne h _ _
    · rfl

theorem unavailableAfter_recordOutcome (modelAlias : String) (status : InvocationAttemptStatus) :
    (repository.recordOutcome modelAlias status).unavailableAfter =
      repository.unavailableAfter := by
  unfold recordOutcome setFailures
  split
  · rfl
  · split <;> rfl

/-- A failure never lowers the counter. -/
theorem le_consecutiveFailures_recordOutcome {modelAlias : String}
    {status : InvocationAttemptStatus} (h : status ≠ .succeeded) :
    repository.consecutiveFailures modelAlias ≤
      (repository.recordOutcome modelAlias status).consecutiveFailures modelAlias := by
  unfold recordOutcome setFailures
  rw [if_neg h]
  split
  · dsimp only
    rw [Function.update_self]
    exact Nat.le_succ _
  · exact Nat.le_refl _

/-- **An unavailable model stays so under every outcome but its own success.** -/
theorem unavailable_recordOutcome {modelAlias other : String} {status : InvocationAttemptStatus}
    (h : repository.getHealth modelAlias = .unavailable) (hne : modelAlias = other → status ≠ .succeeded) :
    (repository.recordOutcome other status).getHealth modelAlias = .unavailable := by
  rw [getHealth_unavailable_iff] at h ⊢
  rw [unavailableAfter_recordOutcome]
  by_cases hother : modelAlias = other
  · subst hother
    exact le_trans h (le_consecutiveFailures_recordOutcome (hne rfl))
  · rw [consecutiveFailures_recordOutcome_ne status hother]
    exact h

end InMemoryModelHealthRepository

end ModelRouter
