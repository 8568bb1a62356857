import ModelRouter.Domain.Invocation

/-!
# What the provider adapters share

* `resolveModel`, `resolveTargetModelId`, `checkCapabilities` : from a model alias to the identifier
  that the provider's API expects;
* `RetryPolicy`, `computeBackoffDelay` : exponential backoff with full jitter, in exact arithmetic;
  a delay is at most the policy's maximum (`computeBackoffDelay_le`);
* `safeMessageFor` : the one message of a category.

The messages about an alias show its `repr`, which is a parameter.
-/

namespace ModelRouter

/-! ## Errors -/

/-- `_SAFE_MESSAGES`. -/
def safeMessageFor : ProviderErrorCategory → String
  | .throttled => "The model provider throttled this request."
  | .transient => "The model provider returned a transient error."
  | .timeout => "The model provider timed out."
  | .permanent => "The model provider rejected this request."

/-- The error that an adapter raises for an exception of its client. -/
def providerErrorFor (category : ProviderErrorCategory) : PyException :=
  .providerError (safeMessageFor category) category

/-- `_MALFORMED_RESPONSE_MESSAGE`. -/
def malformedResponse : PyException :=
  .providerError "The model provider returned a malformed response." .permanent

/-- `_RETRYABLE_CATEGORIES`. -/
def retryableCategories : List ProviderErrorCategory := [.throttled, .transient, .timeout]

/-! ## Resolution -/

section Resolution
variable (repr : String → String)

def resolveModel (modelAlias : String) (modelCatalogue : ModelCatalogue) :
    Except PyException ModelDefinition :=
  match modelCatalogue.getByAlias modelAlias with
  | none => .error (.providerError ("Unknown model alias: " ++ repr modelAlias) .permanent)
  | some model => .ok model

/-- A router alias is followed once, to an entry that is not one. -/
def resolveTargetModelId (model : ModelDefinition) (modelCatalogue : ModelCatalogue) :
    Except PyException String :=
  if model.resolution.type ≠ .routerAlias then .ok model.resolution.value
  else
    let unresolved : PyException := .providerError
      ("Router alias " ++ repr model.modelAlias ++ " does not resolve to an invocable model.")
        .permanent
    match modelCatalogue.getByAlias model.resolution.value with
    | none => .error unresolved
    | some target =>
        if target.resolution.type = .routerAlias then .error unresolved
          else .ok target.resolution.value

def checkCapabilities (request : ProviderRequest) (model : ModelDefinition) :
    Except PyException Unit :=
  if request.requiresToolUse ∧ ¬ model.capabilities.supportsToolUse then
    .error (.providerError ("Model alias " ++ repr model.modelAlias ++
      " does not support tool use.") .permanent)
  else if request.requiresStructuredOutput ∧ ¬ model.capabilities.supportsStructuredOutput then
    .error (.providerError ("Model alias " ++ repr model.modelAlias ++
      " does not support structured output.") .permanent)
  else .ok ()

/-- What both methods of both adapters do first: the model and the identifier of the one that is
called. -/
def prepare (request : ProviderRequest) (modelCatalogue : ModelCatalogue) :
    Except PyException (ModelDefinition × String) := do
  let model ← resolveModel repr request.modelAlias modelCatalogue
  checkCapabilities repr request model
  let targetModelId ← resolveTargetModelId repr model modelCatalogue
  pure (model, targetModelId)

variable {repr}

end Resolution

/-! ## Backoff -/

/-- The defaults are those of a policy that is not given. -/
structure RetryPolicy where
  maxAttempts : Int := 3
  baseDelaySeconds : ℚ := 1 / 2
  maxDelaySeconds : ℚ := 8

/-- The delay before a retry, after `attempt` calls. -/
def computeBackoffDelay (attempt : Nat) (policy : RetryPolicy) (jitterFraction : ℚ) : ℚ :=
  min policy.maxDelaySeconds (policy.baseDelaySeconds * 2 ^ (attempt - 1)) * jitterFraction

theorem computeBackoffDelay_le {policy : RetryPolicy} (hbase : 0 ≤ policy.baseDelaySeconds)
    (hmax : 0 ≤ policy.maxDelaySeconds) {jitterFraction : ℚ} (h0 : 0 ≤ jitterFraction)
    (h1 : jitterFraction < 1)
    (attempt : Nat) : 0 ≤ computeBackoffDelay attempt policy jitterFraction ∧
      computeBackoffDelay attempt policy jitterFraction ≤ policy.maxDelaySeconds := by
  have hcapped : 0 ≤ min policy.maxDelaySeconds (policy.baseDelaySeconds * 2 ^ (attempt - 1)) :=
    le_min hmax (mul_nonneg hbase (by positivity))
  constructor
  · exact mul_nonneg hcapped h0
  · calc min policy.maxDelaySeconds (policy.baseDelaySeconds * 2 ^ (attempt - 1)) * jitterFraction
        ≤ min policy.maxDelaySeconds (policy.baseDelaySeconds * 2 ^ (attempt - 1)) :=
          mul_le_of_le_one_right hcapped h1.le
      _ ≤ policy.maxDelaySeconds := min_le_left _ _

end ModelRouter
