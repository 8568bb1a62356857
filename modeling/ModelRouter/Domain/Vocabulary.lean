import Mathlib.Data.List.Sort

/-!
# The closed vocabularies of the domain

The enumerations of `domain/enums.py`, the reason codes and their canonical order, the exceptions.

`sortReasonCodes` : a list of codes without repetitions, in canonical order (`mem_sortReasonCodes`,
`sortReasonCodes_increasing`).
-/

namespace ModelRouter

inductive Role where
  | system | user | assistant
deriving DecidableEq, Repr

def Role.value : Role → String
  | system => "system"
  | user => "user"
  | assistant => "assistant"

inductive QualityTier where
  | standard | premium
deriving DecidableEq, Repr

def QualityTier.value : QualityTier → String
  | standard => "standard"
  | premium => "premium"

inductive LatencyPreference where
  | low | balanced | high
deriving DecidableEq, Repr

def LatencyPreference.value : LatencyPreference → String
  | low => "low"
  | balanced => "balanced"
  | high => "high"

inductive RoutingStrategyType where
  | preferredModel | lowestCost | qualityTier | experiment
deriving DecidableEq, Repr

inductive ProviderName where
  | bedrock | openai
deriving DecidableEq, Repr

def ProviderName.value : ProviderName → String
  | bedrock => "bedrock"
  | openai => "openai"

inductive ModelHealthStatus where
  | healthy | degraded | unavailable
deriving DecidableEq, Repr

inductive ModelResolutionType where
  | directModelId | crossRegionInferenceProfile | applicationInferenceProfile | routerAlias
deriving DecidableEq, Repr

def ModelResolutionType.value : ModelResolutionType → String
  | directModelId => "direct_model_id"
  | crossRegionInferenceProfile => "cross_region_inference_profile"
  | applicationInferenceProfile => "application_inference_profile"
  | routerAlias => "router_alias"

inductive StopReason where
  | endTurn | maxTokens | stopSequence | toolUse | contentFiltered | guardrailIntervened | other
deriving DecidableEq, Repr

inductive ProviderErrorCategory where
  | throttled | transient | timeout | permanent
deriving DecidableEq, Repr

/-- An exception that derives from `Exception`. The two idempotency errors carry the key their
message names, botocore's `ClientError` its error code. -/
inductive PyException where
  | providerError (message : String) (category : ProviderErrorCategory)
  | routingPolicyNotFoundError (applicationId : String)
  | configurationError (message : String)
  | idempotencyConflictError (idempotencyKey : String)
  | idempotencyInProgressError (idempotencyKey : String)
  | invalidOperation
  | stopIteration
  | runtimeError (message : String)
  | assertionError (message : String)
  | clientError (code : String)
  | other (name : String)
deriving DecidableEq, Repr

/-! ## Reason codes -/

/-- The codes in their order of declaration, which is the canonical order. -/
inductive RoutingReasonCode where
  | capabilityMatch | modelAllowed | modelNotAllowed | withinCostLimit | costLimitExceeded
  | tokenLimitExceeded | lowestEstimatedCost | latencyPreferenceMatch | qualityTierMatch
  | regionPolicyMatch | modelUnhealthy | modelDegraded | modelThrottled | modelUnavailable
  | fallbackSelected | experimentRouteSelected | noEligibleModel | invalidRoutingPolicy
  | requiredCapabilityUnavailable
deriving DecidableEq, Repr

def RoutingReasonCode.value : RoutingReasonCode → String
  | capabilityMatch => "CAPABILITY_MATCH"
  | modelAllowed => "MODEL_ALLOWED"
  | modelNotAllowed => "MODEL_NOT_ALLOWED"
  | withinCostLimit => "WITHIN_COST_LIMIT"
  | costLimitExceeded => "COST_LIMIT_EXCEEDED"
  | tokenLimitExceeded => "TOKEN_LIMIT_EXCEEDED"
  | lowestEstimatedCost => "LOWEST_ESTIMATED_COST"
  | latencyPreferenceMatch => "LATENCY_PREFERENCE_MATCH"
  | qualityTierMatch => "QUALITY_TIER_MATCH"
  | regionPolicyMatch => "REGION_POLICY_MATCH"
  | modelUnhealthy => "MODEL_UNHEALTHY"
  | modelDegraded => "MODEL_DEGRADED"
  | modelThrottled => "MODEL_THROTTLED"
  | modelUnavailable => "MODEL_UNAVAILABLE"
  | fallbackSelected => "FALLBACK_SELECTED"
  | experimentRouteSelected => "EXPERIMENT_ROUTE_SELECTED"
  | noEligibleModel => "NO_ELIGIBLE_MODEL"
  | invalidRoutingPolicy => "INVALID_ROUTING_POLICY"
  | requiredCapabilityUnavailable => "REQUIRED_CAPABILITY_UNAVAILABLE"

/-- `_CANONICAL_ORDER`. -/
def canonicalOrder (code : RoutingReasonCode) : Nat := code.ctorIdx

theorem canonicalOrder_injective : Function.Injective canonicalOrder := by
  intro a b h
  cases a <;> cases b <;> first | rfl | cases h

def sortReasonCodes (codes : List RoutingReasonCode) : List RoutingReasonCode :=
  codes.eraseDups.insertionSort (fun a b => canonicalOrder a ≤ canonicalOrder b)

/-- The codes stand in canonical order, each at most once. -/
def Increasing (codes : List RoutingReasonCode) : Prop :=
  codes.Pairwise (fun a b => canonicalOrder a < canonicalOrder b)

instance (codes : List RoutingReasonCode) : Decidable (Increasing codes) :=
  inferInstanceAs (Decidable (codes.Pairwise _))

@[simp] theorem mem_sortReasonCodes {code : RoutingReasonCode} {codes : List RoutingReasonCode} :
    code ∈ sortReasonCodes codes ↔ code ∈ codes := by
  simp [sortReasonCodes]

theorem nodup_eraseDups {α : Type} [DecidableEq α] : ∀ l : List α, l.eraseDups.Nodup
  | [] => by simp
  | a :: l => by
    rw [List.eraseDups_cons, List.nodup_cons]
    refine ⟨by simp, nodup_eraseDups _⟩
  termination_by l => l.length
  decreasing_by
    have := List.length_filter_le (fun b => !b == a) l
    simp only [List.length_cons]
    omega

theorem sortReasonCodes_increasing (codes : List RoutingReasonCode) :
    Increasing (sortReasonCodes codes) := by
  have hle : (sortReasonCodes codes).Pairwise (fun a b => canonicalOrder a ≤ canonicalOrder b) := by
    have : Std.Total (fun a b => canonicalOrder a ≤ canonicalOrder b) :=
      ⟨fun a b => Nat.le_total _ _⟩
    have : IsTrans RoutingReasonCode (fun a b => canonicalOrder a ≤ canonicalOrder b) :=
      ⟨fun _ _ _ => Nat.le_trans⟩
    exact List.pairwise_insertionSort _ _
  have hne : (sortReasonCodes codes).Nodup :=
    (List.perm_insertionSort _ _).nodup_iff.mpr (nodup_eraseDups codes)
  refine (hle.and hne).imp ?_
  rintro a b ⟨h, hab⟩
  have : canonicalOrder a ≠ canonicalOrder b := fun h' => hab (canonicalOrder_injective h')
  omega

end ModelRouter
