import ModelRouter.Domain.Filtering

/-!
# Provider requests, decisions and results

The data of `domain/provider.py`, `domain/decision.py`, `domain/invocation.py` and
`domain/idempotency.py`. A provider's stream is the chunks it yields and how it ends.
-/

namespace ModelRouter
open Arith

/-- A sampling parameter that is not set is in range. -/
theorem inRange_none : ∀ t ∈ (none : Option ℚ), 0 ≤ t ∧ t ≤ 1 := nofun

@[ext] structure ProviderRequest where
  modelAlias : String
  messages : List Message
  systemPrompt : Option String := none
  maxOutputTokens : Nat
  temperature : Option ℚ := none
  topP : Option ℚ := none
  requiresToolUse : Bool := false
  requiresStructuredOutput : Bool := false
  messages_ne : messages ≠ []
  maxOutputTokens_pos : 0 < maxOutputTokens
  temperature_range : ∀ t ∈ temperature, 0 ≤ t ∧ t ≤ 1 := by simp
  topP_range : ∀ t ∈ topP, 0 ≤ t ∧ t ≤ 1 := by simp
deriving Repr

instance : DecidableEq ProviderRequest := fun _ _ => decidable_of_iff' _ ProviderRequest.ext_iff

structure ProviderResponse where
  modelAlias : String
  provider : ProviderName
  message : Message
  stopReason : StopReason
  usage : Usage
deriving DecidableEq, Repr

structure ProviderResponseChunk where
  deltaText : String := ""
  isFinal : Bool := false
  stopReason : Option StopReason := none
  usage : Option Usage := none
deriving DecidableEq, Repr

/-- The iterator a streaming provider returns: its chunks, then its end, an exception when it
fails. -/
structure ChunkStream where
  chunks : List ProviderResponseChunk
  failure : Option PyException := none
deriving DecidableEq, Repr

/-- `createdAt` is in microseconds. -/
structure RoutingDecision where
  decisionId : String
  applicationId : String
  createdAt : Nat
  policyId : String
  policyVersion : Nat
  capability : String
  selectedModelAlias : Option String
  provider : Option ProviderName
  fallbackUsed : Bool := false
  reasonCodes : List RoutingReasonCode
  consideredCandidates : List RouteCandidate
  estimatedUsage : Option Usage := none
  estimatedCost : Option EstimatedCost := none
deriving DecidableEq, Repr

/-! ## Attempts -/

inductive InvocationAttemptStatus where
  | succeeded | throttled | transientError | nonRetryableError | timeout
deriving DecidableEq, Repr

def InvocationAttemptStatus.value : InvocationAttemptStatus → String
  | succeeded => "succeeded"
  | throttled => "throttled"
  | transientError => "transient_error"
  | nonRetryableError => "non_retryable_error"
  | timeout => "timeout"

def statusForProviderErrorCategory : ProviderErrorCategory → InvocationAttemptStatus
  | .throttled => .throttled
  | .transient => .transientError
  | .timeout => .timeout
  | .permanent => .nonRetryableError

def reasonCodeForProviderErrorCategory : ProviderErrorCategory → Option RoutingReasonCode
  | .throttled => some .modelThrottled
  | .transient => some .modelUnavailable
  | .timeout => some .modelUnavailable
  | .permanent => none

structure InvocationAttempt where
  modelAlias : String
  status : InvocationAttemptStatus
  latencyMs : Nat
deriving DecidableEq, Repr

structure InferenceResult where
  decision : RoutingDecision
  response : Option ProviderResponse
  invocationAttempts : List InvocationAttempt := []
deriving DecidableEq, Repr

structure AuditRecord where
  decision : RoutingDecision
  invocationAttempts : List InvocationAttempt := []
deriving DecidableEq, Repr

/-! ## Idempotency -/

inductive IdempotencyOutcome where
  | new | inProgress | completed | conflict
deriving DecidableEq, Repr

structure IdempotencyReservation where
  outcome : IdempotencyOutcome
  cachedResult : Option InferenceResult := none
deriving DecidableEq, Repr

end ModelRouter
