import ModelRouter.Domain.Policy

/-!
# Candidate filtering

`evaluateCandidate` checks a model in every dimension and records the reason codes of all of them.
Its result is read through `evaluateCandidate_ok` (what is copied from the model and the estimators)
and `candidateEligible_iff` (what an eligible candidate has passed).
-/

namespace ModelRouter
open Arith

structure RouteCandidate where
  modelAlias : String
  provider : ProviderName
  eligible : Bool
  reasonCodes : List RoutingReasonCode
  estimatedUsage : Usage
  estimatedCost : EstimatedCost
deriving DecidableEq, Repr

/-! ## The dimensions -/

/-- A degraded model stays eligible; the code is informational. -/
def healthCodes : ModelHealthStatus → List RoutingReasonCode
  | .unavailable => [.modelUnhealthy]
  | .degraded => [.modelDegraded]
  | .healthy => []

def capabilityMatched (model : ModelDefinition) (requirements : EffectiveRoutingRequirements) :
    Bool :=
  requirements.capability ∈ model.capabilities.capabilityTags &&
    (!requirements.requiresToolUse || model.capabilities.supportsToolUse) &&
    (!requirements.requiresStructuredOutput || model.capabilities.supportsStructuredOutput)

def modelAllowed (model : ModelDefinition) (policy : RoutingPolicy) : Bool :=
  model.modelAlias ∈ policy.allowedModelAliases

def qualityTierMatched (model : ModelDefinition) (requirements : EffectiveRoutingRequirements) :
    Bool :=
  model.capabilities.qualityTier = requirements.qualityTier

def tokenLimitExceeded (model : ModelDefinition) (usage : Usage) : Bool :=
  model.capabilities.maxInputTokens < usage.inputTokens ||
    model.capabilities.maxOutputTokens < usage.outputTokens

def withinCostLimit (requirements : EffectiveRoutingRequirements) (cost : EstimatedCost) : Bool :=
  cost.amountUsd ≤ requirements.maximumEstimatedCostUsd

/-- The codes of one candidate, in the order the dimensions are checked. -/
def candidateCodes (model : ModelDefinition) (requirements : EffectiveRoutingRequirements)
    (policy : RoutingPolicy) (usage : Usage) (cost : EstimatedCost)
    (healthStatus : ModelHealthStatus) :
    List RoutingReasonCode :=
  healthCodes healthStatus ++
    (if capabilityMatched model requirements then [.capabilityMatch] else []) ++
    [if modelAllowed model policy then .modelAllowed else .modelNotAllowed] ++
    (if qualityTierMatched model requirements then [.qualityTierMatch] else []) ++
    (if tokenLimitExceeded model usage then [.tokenLimitExceeded] else []) ++
    [if withinCostLimit requirements cost then .withinCostLimit else .costLimitExceeded]

def candidateEligible (model : ModelDefinition) (requirements : EffectiveRoutingRequirements)
    (policy : RoutingPolicy) (usage : Usage) (cost : EstimatedCost)
    (healthStatus : ModelHealthStatus) : Bool :=
  healthStatus ≠ .unavailable && capabilityMatched model requirements && modelAllowed
    model policy &&
    qualityTierMatched model requirements && !tokenLimitExceeded model usage && withinCostLimit
      requirements cost

/-! ## One candidate -/

def evaluateCandidate (model : ModelDefinition) (requirements : EffectiveRoutingRequirements)
    (policy : RoutingPolicy) (tokenEstimator : TokenEstimator) (costEstimator : CostEstimator)
    (messages : List Message) (healthStatus : ModelHealthStatus) :
      Except PyException RouteCandidate :=
  let usage := tokenEstimator.estimate messages requirements.maximumOutputTokens
  match costEstimator.estimate usage model.pricing with
  | .error x => .error x
  | .ok cost => .ok {
      modelAlias := model.modelAlias
      provider := model.provider
      eligible := candidateEligible model requirements policy usage cost healthStatus
      reasonCodes := sortReasonCodes
        (candidateCodes model requirements policy usage cost healthStatus)
      estimatedUsage := usage
      estimatedCost := cost }

variable {model : ModelDefinition} {requirements : EffectiveRoutingRequirements}
  {policy : RoutingPolicy}
  {tokenEstimator : TokenEstimator} {costEstimator : CostEstimator} {messages : List Message}
  {healthStatus : ModelHealthStatus} {candidate : RouteCandidate}

theorem evaluateCandidate_ok
    (h : evaluateCandidate model requirements policy tokenEstimator costEstimator messages
      healthStatus =
      .ok candidate) :
    candidate.modelAlias = model.modelAlias ∧ candidate.provider = model.provider ∧
      candidate.estimatedUsage = tokenEstimator.estimate messages requirements.maximumOutputTokens ∧
      costEstimator.estimate candidate.estimatedUsage model.pricing = .ok candidate.estimatedCost ∧
      candidate.eligible = candidateEligible model requirements policy candidate.estimatedUsage
        candidate.estimatedCost healthStatus ∧
      candidate.reasonCodes = sortReasonCodes (candidateCodes model requirements policy
        candidate.estimatedUsage candidate.estimatedCost healthStatus) := by
  unfold evaluateCandidate at h
  dsimp only at h
  split at h
  · cases h
  · rename_i cost hcost
    cases h
    exact ⟨rfl, rfl, rfl, hcost, rfl, rfl⟩

/-- An eligible candidate has passed every dimension. -/
structure Passes (model : ModelDefinition) (requirements : EffectiveRoutingRequirements)
    (policy : RoutingPolicy) (usage : Usage) (cost : EstimatedCost)
    (healthStatus : ModelHealthStatus) :
    Prop where
  health : healthStatus ≠ .unavailable
  capability : requirements.capability ∈ model.capabilities.capabilityTags
  toolUse : requirements.requiresToolUse → model.capabilities.supportsToolUse
  structuredOutput : requirements.requiresStructuredOutput →
    model.capabilities.supportsStructuredOutput
  allowed : model.modelAlias ∈ policy.allowedModelAliases
  tier : model.capabilities.qualityTier = requirements.qualityTier
  inputTokens : usage.inputTokens ≤ model.capabilities.maxInputTokens
  outputTokens : usage.outputTokens ≤ model.capabilities.maxOutputTokens
  cost : cost.amountUsd ≤ requirements.maximumEstimatedCostUsd

theorem candidateEligible_iff (usage : Usage) (cost : EstimatedCost) :
    candidateEligible model requirements policy usage cost healthStatus = true ↔
      Passes model requirements policy usage cost healthStatus := by
  unfold candidateEligible capabilityMatched modelAllowed qualityTierMatched tokenLimitExceeded
    withinCostLimit
  simp only [Bool.and_eq_true, decide_eq_true_eq, Bool.or_eq_true, Bool.not_eq_true',
    Bool.or_eq_false_iff,
    decide_eq_false_iff_not, not_lt]
  refine ⟨?_, fun h => ?_⟩
  · rintro ⟨⟨⟨⟨⟨h1, ⟨h2, h3⟩, h4⟩, h5⟩, h6⟩, h7, h8⟩, h9⟩
    refine ⟨h1, h2, fun hr => ?_, fun hr => ?_, h5, h6, h7, h8, h9⟩
    · rcases h3 with h3 | h3
      · rw [hr] at h3
        cases h3
      · exact h3
    · rcases h4 with h4 | h4
      · rw [hr] at h4
        cases h4
      · exact h4
  · refine ⟨⟨⟨⟨⟨h.health, ⟨h.capability, ?_⟩, ?_⟩, h.allowed⟩, h.tier⟩, h.inputTokens,
      h.outputTokens⟩, h.cost⟩
    · cases hr : requirements.requiresToolUse with
      | false => exact Or.inl rfl
      | true => exact Or.inr (h.toolUse hr)
    · cases hr : requirements.requiresStructuredOutput with
      | false => exact Or.inl rfl
      | true => exact Or.inr (h.structuredOutput hr)

/-- The codes of a candidate come from its filter dimensions only. -/
theorem mem_candidateCodes {usage : Usage} {cost : EstimatedCost} {code : RoutingReasonCode}
    (h : code ∈ candidateCodes model requirements policy usage cost healthStatus) :
    code ∈ [RoutingReasonCode.capabilityMatch, .modelAllowed, .modelNotAllowed, .withinCostLimit,
      .costLimitExceeded, .tokenLimitExceeded, .qualityTierMatch, .modelUnhealthy,
        .modelDegraded] := by
  unfold candidateCodes healthCodes at h
  simp only [List.mem_append, List.mem_singleton, or_assoc] at h
  rcases h with h | h | h | h | h | h
  · cases healthStatus <;> simp_all
  all_goals split at h <;> simp_all

/-- The codes every eligible candidate carries. -/
def eligibleCodes : List RoutingReasonCode :=
  [.capabilityMatch, .modelAllowed, .withinCostLimit, .qualityTierMatch]

/-- An eligible candidate carries them, and `MODEL_DEGRADED` if its model is degraded, and no other
code. -/
theorem mem_codes_of_eligible {usage : Usage} {cost : EstimatedCost} {code : RoutingReasonCode}
    (h : candidateEligible model requirements policy usage cost healthStatus = true) :
    code ∈ candidateCodes model requirements policy usage cost healthStatus ↔
      code ∈ eligibleCodes ∨ code = .modelDegraded ∧ healthStatus = .degraded := by
  unfold candidateEligible at h
  simp only [Bool.and_eq_true, Bool.not_eq_true', decide_eq_true_eq] at h
  obtain ⟨⟨⟨⟨⟨hhealth, hcapability⟩, hallowed⟩, htier⟩, htokens⟩, hcost⟩ := h
  unfold candidateCodes
  rw [if_pos hcapability, if_pos hallowed, if_pos htier, if_neg (by simp [htokens]), if_pos hcost]
  cases healthStatus with
  | unavailable => exact absurd rfl hhealth
  | degraded => cases code <;> simp [healthCodes, eligibleCodes]
  | healthy => cases code <;> simp [healthCodes, eligibleCodes]

end ModelRouter
