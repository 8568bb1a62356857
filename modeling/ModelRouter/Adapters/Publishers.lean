import ModelRouter.Domain.Invocation

/-!
# The publishers

* `EmfMetricsPublisher.publish` : the metric lines of a result; `publish_ok` : every property it
  attaches is on the whitelist, so publishing never raises;
* `EventBridgeDecisionEventPublisher.buildDetail` : the detail of the decision event.

`float(amount)` is kept as the amount, `created_at.isoformat()` as the time.
-/

namespace ModelRouter

/-! ## Metrics -/

inductive MetricValue where
  | int (value : Nat)
  | float (amount : Money)
deriving DecidableEq, Repr

/-- What one `_put_metric` call is given. -/
structure MetricPoint where
  name : String
  value : MetricValue
  unit : String
  extra : List (String × String)
deriving DecidableEq, Repr

/-- One line of embedded metric format: a metric of the dimension `Environment`, and its
properties. -/
structure MetricLine where
  timestamp : Nat
  environment : String
  point : MetricPoint
deriving DecidableEq, Repr

/-- `_ALLOWED_EXTRA_KEYS`. -/
def allowedExtraKeys : List String := ["Capability", "ModelAlias", "Status", "ApplicationId"]

/-- `_NO_ELIGIBLE_REASON_CODES`. -/
def noEligibleReasonCodes : List RoutingReasonCode :=
  [.noEligibleModel, .requiredCapabilityUnavailable]

structure EmfMetricsPublisher where
  environment : String

/-- The points about the decision. -/
def decisionMetrics (decision : RoutingDecision) : List MetricPoint :=
  let common := [("Capability", decision.capability)]
  let noEligibleModel := decision.reasonCodes.any (· ∈ noEligibleReasonCodes)
  [⟨"RequestCount", .int 1, "Count", common⟩,
    ⟨"FallbackUsedCount", .int (if decision.fallbackUsed then 1 else 0), "Count", common⟩,
    ⟨"NoEligibleModelCount", .int (if noEligibleModel then 1 else 0), "Count", common⟩] ++
  match decision.estimatedCost with
  | none => []
  | some cost => [⟨"EstimatedCostUsd", .float cost.amountUsd, "None",
      common ++ [("ApplicationId", decision.applicationId)]⟩]

/-- The points about one attempt. -/
def attemptMetrics (attempt : InvocationAttempt) : List MetricPoint :=
  let extraAttempt := [("ModelAlias", attempt.modelAlias), ("Status", attempt.status.value)]
  [⟨"InvocationAttemptCount", .int 1, "Count", extraAttempt⟩,
    ⟨"InvocationLatencyMs", .int attempt.latencyMs, "Milliseconds", extraAttempt⟩] ++
  if attempt.status ≠ .succeeded
    then [⟨"ProviderFailureCount", .int 1, "Count", extraAttempt⟩] else []

def resultMetrics (result : InferenceResult) : List MetricPoint :=
  decisionMetrics result.decision ++ result.invocationAttempts.flatMap attemptMetrics

namespace EmfMetricsPublisher

variable (publisher : EmfMetricsPublisher)

def putMetric (timestamp : Nat) (point : MetricPoint) : Except PyException MetricLine :=
  if point.extra.any (·.1 ∉ allowedExtraKeys) then .error (.other "ValueError")
  else .ok { timestamp, environment := publisher.environment, point }

/-- The lines `publish` prints. -/
def publish (timestamp : Nat) (result : InferenceResult) : Except PyException (List MetricLine) :=
  (resultMetrics result).mapM (publisher.putMetric timestamp)

/-- Every property a point carries is on the whitelist. -/
theorem resultMetrics_allowed {result : InferenceResult} {point : MetricPoint}
    (h : point ∈ resultMetrics result) :
    ∀ property ∈ point.extra, property.1 ∈ allowedExtraKeys := by
  rw [resultMetrics, List.mem_append, List.mem_flatMap] at h
  rcases h with h | ⟨attempt, -, h⟩
  · rw [decisionMetrics, List.mem_append] at h
    rcases h with h | h
    · simp only [List.mem_cons, List.not_mem_nil, or_false] at h
      rcases h with rfl | rfl | rfl <;> simp [allowedExtraKeys]
    · split at h
      · cases h
      · obtain rfl := List.mem_singleton.mp h
        simp [allowedExtraKeys]
  · rw [attemptMetrics, List.mem_append] at h
    rcases h with h | h
    · simp only [List.mem_cons, List.not_mem_nil, or_false] at h
      rcases h with rfl | rfl <;> simp [allowedExtraKeys]
    · split at h
      · obtain rfl := List.mem_singleton.mp h
        simp [allowedExtraKeys]
      · cases h

theorem mapM_ok {α β ε : Type} {f : α → Except ε β} {g : α → β} {l : List α}
    (h : ∀ a ∈ l, f a = .ok (g a)) :
    l.mapM f = .ok (l.map g) := by
  induction l with
  | nil => rfl
  | cons a l ih =>
      rw [List.mapM_cons, h a List.mem_cons_self, ih fun b hb => h b (List.mem_cons_of_mem _ hb)]
      rfl

/-- **Publishing never raises**: one line for each point. -/
theorem publish_ok (timestamp : Nat) (result : InferenceResult) :
    publisher.publish timestamp result =
    .ok ((resultMetrics result).map fun point => ⟨timestamp, publisher.environment, point⟩) := by
  refine mapM_ok fun point hpoint => ?_
  have hallowed := resultMetrics_allowed hpoint
  rw [putMetric, if_neg]
  simpa using fun key value hmem => hallowed (key, value) hmem

end EmfMetricsPublisher

/-! ## Decision events -/

/-- The detail of a `RoutingDecisionCompleted` event. -/
structure DecisionEventDetail where
  decisionId : String
  applicationId : String
  createdAt : Nat
  policyId : String
  policyVersion : Nat
  capability : String
  selectedModelAlias : Option String
  provider : Option String
  fallbackUsed : Bool
  reasonCodes : List String
  estimatedCostUsd : Option Money
deriving DecidableEq, Repr

/-- `_build_detail`. -/
def EventBridgeDecisionEventPublisher.buildDetail (result : InferenceResult) :
    DecisionEventDetail where
  decisionId := result.decision.decisionId
  applicationId := result.decision.applicationId
  createdAt := result.decision.createdAt
  policyId := result.decision.policyId
  policyVersion := result.decision.policyVersion
  capability := result.decision.capability
  selectedModelAlias := result.decision.selectedModelAlias
  provider := result.decision.provider.map (·.value)
  fallbackUsed := result.decision.fallbackUsed
  reasonCodes := result.decision.reasonCodes.map (·.value)
  estimatedCostUsd := result.decision.estimatedCost.map (·.amountUsd)

end ModelRouter
