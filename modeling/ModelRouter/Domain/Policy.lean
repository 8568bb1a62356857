import ModelRouter.Domain.Catalogue

/-!
# Requests and routing policies

* `InferenceRequest`, `RoutingRequirements` : what a client asks for;
* `RoutingPolicy` : a policy that has passed its validators (`validateConsistency`);
* `resolveEffectiveRequirements` : the requested constraints, bounded by the policy
  (`effectiveQualityTier_allowed`, `effectiveCostLimit_le`, `effectiveTokenLimit_le`).

A policy leaves out `is_default`, which nothing reads.
-/

namespace ModelRouter
open Arith

/-! ## Policies -/

structure IdempotencyPolicy where
  allowResponseCaching : Bool := false
  retentionSeconds : Nat := 300
  retentionSeconds_pos : 0 < retentionSeconds := by decide
deriving DecidableEq, Repr

structure ClientOverridePermissions where
  qualityTier : Bool := false
  maximumEstimatedCostUsd : Bool := false
  maximumOutputTokens : Bool := false
  latencyPreference : Bool := false
deriving DecidableEq, Repr

structure FallbackPolicy where
  fallbackModelAliases : List String := []
  maximumAttempts : Nat := 1
  maximumAttempts_pos : 1 ≤ maximumAttempts := by decide
deriving DecidableEq, Repr

inductive ExperimentSubjectKeySource where
  | applicationId | conversationId | applicationAndConversation
deriving DecidableEq, Repr

structure ExperimentArm where
  modelAlias : String
  weight : Nat
  weight_pos : 0 < weight := by decide
deriving DecidableEq, Repr

structure ExperimentPolicy where
  experimentId : String
  arms : List ExperimentArm
  subjectKeySource : ExperimentSubjectKeySource := .applicationAndConversation
  two_arms : 2 ≤ arms.length := by decide
  unique_arms : (arms.map (·.modelAlias)).Nodup := by decide
deriving DecidableEq, Repr

/-- The fields of a policy file, each within its own bounds. -/
structure RoutingPolicyFields where
  policyId : String
  policyVersion : Nat
  allowedCapabilities : List String
  allowedModelAliases : List String
  allowedQualityTiers : List QualityTier
  defaultQualityTier : QualityTier
  maximumEstimatedCostUsd : Money
  maximumOutputTokens : Nat
  routingStrategy : RoutingStrategyType
  preferredModelAlias : Option String := none
  latencyPreference : LatencyPreference := .balanced
  allowClientOverrides : ClientOverridePermissions := {}
  fallbackPolicy : FallbackPolicy := {}
  experimentPolicy : Option ExperimentPolicy := none
  idempotencyPolicy : IdempotencyPolicy := {}
  policyVersion_pos : 0 < policyVersion := by decide
  allowedCapabilities_ne : allowedCapabilities ≠ [] := by decide
  allowedModelAliases_ne : allowedModelAliases ≠ [] := by decide
  allowedQualityTiers_ne : allowedQualityTiers ≠ [] := by decide
  maximumOutputTokens_pos : 0 < maximumOutputTokens := by decide
deriving DecidableEq, Repr

/-- A rejection of `_validate_consistency`. The alias of the last two is the one the message
names. -/
inductive PolicyInconsistency where
  | defaultTierNotAllowed | preferredAliasRequired | preferredAliasNotAllowed
  | experimentPolicyRequired | armNotAllowed (modelAlias : String) |
    fallbackNotAllowed (modelAlias : String)
deriving DecidableEq, Repr

/-- The first alias that is not allowed. -/
def firstNotAllowed (allowed aliases : List String) : Option String := aliases.find? (· ∉ allowed)

/-- `_validate_consistency`: the first rule the policy breaks. -/
def validateConsistency (policy : RoutingPolicyFields) : Option PolicyInconsistency :=
  if policy.defaultQualityTier ∉ policy.allowedQualityTiers then some .defaultTierNotAllowed
  else if policy.routingStrategy = .preferredModel ∧ (policy.preferredModelAlias.getD "" = "") then
    some .preferredAliasRequired
  else if policy.preferredModelAlias.any (· ∉ policy.allowedModelAliases) then
    some .preferredAliasNotAllowed
  else if policy.routingStrategy = .experiment ∧ policy.experimentPolicy = none then
    some .experimentPolicyRequired
  else match firstNotAllowed policy.allowedModelAliases
      (((policy.experimentPolicy.map (·.arms)).getD []).map (·.modelAlias)) with
    | some modelAlias => some (.armNotAllowed modelAlias)
    | none => (firstNotAllowed policy.allowedModelAliases policy.fallbackPolicy.fallbackModelAliases).map
        .fallbackNotAllowed

/-- A policy that has been validated. -/
structure RoutingPolicy extends RoutingPolicyFields where
  consistent : validateConsistency toRoutingPolicyFields = none := by decide
deriving DecidableEq, Repr

namespace RoutingPolicy

variable (policy : RoutingPolicy)

theorem default_tier_allowed : policy.defaultQualityTier ∈ policy.allowedQualityTiers := by
  have h := policy.consistent
  unfold validateConsistency at h
  by_contra hnot
  rw [if_pos hnot] at h
  cases h

end RoutingPolicy

/-! ## Requests -/

/-- Unicode white space, as `str.strip` removes it. -/
def isSpace (c : Char) : Bool :=
  (9 ≤ c.val && c.val ≤ 13) || (28 ≤ c.val && c.val ≤ 32) || c.val == 0x85 || c.val == 0xA0 ||
    c.val == 0x1680 || (0x2000 ≤ c.val && c.val ≤ 0x200A) || c.val == 0x2028 || c.val == 0x2029 ||
    c.val == 0x202F || c.val == 0x205F || c.val == 0x3000

/-- `not value.strip()`. -/
def isBlank (value : String) : Bool := value.toList.all isSpace

structure RoutingRequirements where
  capability : String
  qualityTier : Option QualityTier := none
  maximumEstimatedCostUsd : Option Money := none
  maximumOutputTokens : Option Nat := none
  latencyPreference : Option LatencyPreference := none
  requiresToolUse : Bool := false
  requiresStructuredOutput : Bool := false
  maximumOutputTokens_pos : ∀ n ∈ maximumOutputTokens, 0 < n := by decide
deriving DecidableEq, Repr

structure InferenceRequest where
  applicationId : String
  messages : List Message
  requirements : RoutingRequirements
  conversationId : Option String := none
  idempotencyKey : Option String := none
  metadata : List (String × String) := []
  messages_ne : messages ≠ [] := by decide
  applicationId_not_blank : isBlank applicationId = false := by decide
deriving DecidableEq, Repr

/-! ## Effective requirements -/

structure EffectiveRoutingRequirements where
  capability : String
  qualityTier : QualityTier
  maximumEstimatedCostUsd : Money
  maximumOutputTokens : Nat
  latencyPreference : LatencyPreference
  requiresToolUse : Bool
  requiresStructuredOutput : Bool
  maximumOutputTokens_pos : 0 < maximumOutputTokens
deriving DecidableEq, Repr

/-- The requested tier, if the policy lets the client choose and allows it. -/
def effectiveQualityTier (requested : RoutingRequirements) (policy : RoutingPolicy) : QualityTier :=
  match requested.qualityTier with
  | some tier =>
    if policy.allowClientOverrides.qualityTier ∧ tier ∈ policy.allowedQualityTiers then tier
    else policy.defaultQualityTier
  | none => policy.defaultQualityTier

def effectiveCostLimit (requested : RoutingRequirements) (policy : RoutingPolicy) : Money :=
  match requested.maximumEstimatedCostUsd with
  | some cost =>
    if policy.allowClientOverrides.maximumEstimatedCostUsd then
      Decimal.min cost policy.maximumEstimatedCostUsd
    else policy.maximumEstimatedCostUsd
  | none => policy.maximumEstimatedCostUsd

def effectiveTokenLimit (requested : RoutingRequirements) (policy : RoutingPolicy) : Nat :=
  match requested.maximumOutputTokens with
  | some tokens =>
    if policy.allowClientOverrides.maximumOutputTokens then min tokens policy.maximumOutputTokens
    else policy.maximumOutputTokens
  | none => policy.maximumOutputTokens

theorem effectiveTokenLimit_pos (requested : RoutingRequirements) (policy : RoutingPolicy) :
    0 < effectiveTokenLimit requested policy := by
  unfold effectiveTokenLimit
  have hpolicy := policy.maximumOutputTokens_pos
  cases h : requested.maximumOutputTokens with
  | none => exact hpolicy
  | some tokens =>
      have htokens := requested.maximumOutputTokens_pos tokens h
      dsimp only
      split <;> omega

def resolveEffectiveRequirements (requested : RoutingRequirements) (policy : RoutingPolicy) :
    EffectiveRoutingRequirements where
  capability := requested.capability
  qualityTier := effectiveQualityTier requested policy
  maximumEstimatedCostUsd := effectiveCostLimit requested policy
  maximumOutputTokens := effectiveTokenLimit requested policy
  latencyPreference :=
    if policy.allowClientOverrides.latencyPreference then
      requested.latencyPreference.getD policy.latencyPreference
    else policy.latencyPreference
  requiresToolUse := requested.requiresToolUse
  requiresStructuredOutput := requested.requiresStructuredOutput
  maximumOutputTokens_pos := effectiveTokenLimit_pos requested policy

/-- The effective tier is one the policy allows. -/
theorem effectiveQualityTier_allowed (requested : RoutingRequirements) (policy : RoutingPolicy) :
    effectiveQualityTier requested policy ∈ policy.allowedQualityTiers := by
  unfold effectiveQualityTier
  cases requested.qualityTier with
  | none => exact policy.default_tier_allowed
  | some tier =>
      dsimp only
      split
      · rename_i h
        exact h.2
      · exact policy.default_tier_allowed

/-- An override of the cost limit can only tighten it. -/
theorem effectiveCostLimit_le (requested : RoutingRequirements) (policy : RoutingPolicy) :
    effectiveCostLimit requested policy ≤ policy.maximumEstimatedCostUsd := by
  unfold effectiveCostLimit
  cases requested.maximumEstimatedCostUsd with
  | none => exact le_refl _
  | some cost =>
      dsimp only
      split
      · exact Decimal.min_le_right _ _
      · exact le_refl _

theorem effectiveCostLimit_le_requested (requested : RoutingRequirements) (policy : RoutingPolicy)
    (hoverride : policy.allowClientOverrides.maximumEstimatedCostUsd) {cost : Money}
    (hcost : requested.maximumEstimatedCostUsd = some cost) :
    effectiveCostLimit requested policy ≤ cost := by
  unfold effectiveCostLimit
  rw [hcost]
  dsimp only
  rw [if_pos hoverride]
  exact Decimal.min_le_left _ _

/-- An override of the token limit can only tighten it. -/
theorem effectiveTokenLimit_le (requested : RoutingRequirements) (policy : RoutingPolicy) :
    effectiveTokenLimit requested policy ≤ policy.maximumOutputTokens := by
  unfold effectiveTokenLimit
  cases requested.maximumOutputTokens with
  | none => exact le_refl _
  | some tokens =>
      dsimp only
      split <;> omega

theorem effectiveTokenLimit_le_requested (requested : RoutingRequirements) (policy : RoutingPolicy)
    (hoverride : policy.allowClientOverrides.maximumOutputTokens) {tokens : Nat}
    (htokens : requested.maximumOutputTokens = some tokens) :
    effectiveTokenLimit requested policy ≤ tokens := by
  unfold effectiveTokenLimit
  rw [htokens]
  dsimp only
  rw [if_pos hoverride]
  omega

end ModelRouter
