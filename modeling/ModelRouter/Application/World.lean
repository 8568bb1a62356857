import ModelRouter.Adapters.DynamoDbIdempotencyStore
import ModelRouter.Adapters.ModelHealth
import ModelRouter.Adapters.Publishers
import ModelRouter.Application.CandidateChain

/-!
# A deterministic world

`World.answer` answers every port: the policies, one outcome for each model, an identifier, a wall
clock and a monotonic clock are fixed; health is kept by the in-memory repository; audit records,
metric lines and decision events are collected in the `AuditTrail`.
-/

namespace ModelRouter
open Effects

/-- How a model answers: with a response, streamed in at least one chunk, or with a provider error,
which a stream raises before its first chunk. -/
inductive ModelOutcome where
  | success (response : ProviderResponse) (first : ProviderResponseChunk)
      (chunks : List ProviderResponseChunk)
  | failure (message : String) (category : ProviderErrorCategory)

namespace ModelOutcome

def response : ModelOutcome → Except PyException ProviderResponse
  | success response _ _ => .ok response
  | failure message category => .error (.providerError message category)

def stream : ModelOutcome → Except PyException ChunkStream
  | success _ first chunks => .ok { chunks := first :: chunks }
  | failure message category => .error (.providerError message category)

end ModelOutcome

structure World where
  policy : String → Except PyException RoutingPolicy
  outcome : String → ModelOutcome
  decisionId : String
  now : Nat
  /-- The readings of the monotonic clock, in order. -/
  monotonic : Nat → Nat
  metricsPublisher : EmfMetricsPublisher

/-- What requests leave behind. -/
structure AuditTrail where
  saved : List AuditRecord := []
  metrics : List MetricLine := []
  events : List DecisionEventDetail := []
deriving DecidableEq, Repr

structure WorldState where
  health : InMemoryModelHealthRepository := {}
  readings : Nat := 0
  trail : AuditTrail := {}

namespace World

def answer (world : World) : Handler Ports WorldState
  | .resolve applicationId, s => (world.policy applicationId, s)
  | .getHealth modelAlias, s => (.ok (s.health.getHealth modelAlias), s)
  | .recordOutcome modelAlias status, s =>
      (.ok (), { s with health := s.health.recordOutcome modelAlias status })
  | .newId _, s => (.ok world.decisionId, s)
  | .now, s => (.ok world.now, s)
  | .monotonic, s => (.ok (world.monotonic s.readings), { s with readings := s.readings + 1 })
  | .invoke request, s => ((world.outcome request.modelAlias).response, s)
  | .invokeStream request, s => ((world.outcome request.modelAlias).stream, s)
  | .yieldChunk _, s => (.ok (), s)
  | .save auditRecord, s => (.ok (), { s with trail.saved := s.trail.saved ++ [auditRecord] })
  | .publishMetrics result, s => match world.metricsPublisher.publish (world.now / 1000) result with
    | .ok lines => (.ok (), { s with trail.metrics := s.trail.metrics ++ lines })
    | .error x => (.error x, s)
  | .publishEvent result, s =>
    (.ok (), { s with trail.events := s.trail.events ++
      [EventBridgeDecisionEventPublisher.buildDetail result] })
  | .reserve _ _ _, s => (.ok { outcome := .new }, s)
  | .complete _ _ _ _ _ _, s => (.ok (), s)
  | .release _ _, s => (.ok (), s)

/-- The world with other streams for the models. -/
def streaming (world : World) (streams : String → Except PyException ChunkStream) :
    Handler Ports WorldState
  | .invokeStream request, s => (streams request.modelAlias, s)
  | port, s => world.answer port s

theorem resolve_mem_trace {α : Type} {world : World} {p : Prog Ports α} {s : WorldState}
    {applicationId : String} {policy : RoutingPolicy}
    (h : (⟨.resolve applicationId, .ok policy⟩ : Event Ports) ∈ trace world.answer p s) :
    world.policy applicationId = .ok policy := by
  obtain ⟨s', hreply⟩ := mem_trace h
  exact hreply.symm

end World

/-! ## A scenario -/

namespace Scenario
open Arith

def model (modelAlias : String) (price : Nat) : ModelDefinition where
  modelAlias := modelAlias
  provider := .bedrock
  region := "eu-west-1"
  resolution := { type := .directModelId, value := modelAlias }
  capabilities :=
    { capabilityTags := ["chat"], qualityTier := .standard, maxInputTokens := 8000
      maxOutputTokens := 1000 }
  pricing := { inputPricePer1kTokens := ⟨false, price, -3⟩, outputPricePer1kTokens := ⟨false, price, -3⟩ }
  resolution_matches_provider := Or.inl rfl

/-- Nothing has been requested yet. -/
def fresh : WorldState := {}

/-- Two models, the cheaper one last. -/
def catalogue : ModelCatalogue where
  models := [model "primary" 3, model "fallback" 1]

def policyFields : RoutingPolicyFields where
  policyId := "pol"
  policyVersion := 1
  allowedCapabilities := ["chat"]
  allowedModelAliases := ["primary", "fallback"]
  allowedQualityTiers := [.standard]
  defaultQualityTier := .standard
  maximumEstimatedCostUsd := ⟨false, 1, 0⟩
  maximumOutputTokens := 500
  routingStrategy := .preferredModel
  preferredModelAlias := some "primary"
  fallbackPolicy := { fallbackModelAliases := ["fallback"], maximumAttempts := 2 }

def policy : RoutingPolicy := { policyFields with }

def request : InferenceRequest where
  applicationId := "app"
  messages := [⟨.user, "hello"⟩]
  requirements := { capability := "chat" }

def keyed : InferenceRequest := { request with idempotencyKey := some "key" }

def orchestrator : InvocationOrchestrator where
  routeEvaluationService :=
    { modelCatalogue := catalogue, digestPrefix := fun _ => 0, tracksHealth := true }
  computeRequestHash := fun request =>
    .ok (String.intercalate "\n" (request.messages.map (·.content)))

def response (modelAlias : String) : ProviderResponse :=
  ⟨modelAlias, .bedrock, ⟨.assistant, "hi"⟩, .endTurn, ⟨2, 1⟩⟩

/-- The primary model is throttled, every other model answers. -/
def throttled : World where
  policy _ := .ok policy
  outcome modelAlias :=
    if modelAlias = "primary" then .failure "throttled" .throttled
    else .success (response modelAlias) { deltaText := "hi", isFinal := true } []
  decisionId := "dec_1"
  now := 0
  monotonic n := 1000000 * n
  metricsPublisher := { environment := "test" }

/-- Every model answers. -/
def answering : World := { throttled with
  outcome := fun modelAlias =>
    .success (response modelAlias) { deltaText := "hi", isFinal := true } [] }

/-- The primary model is throttled before a chunk, every other model after two. -/
def breaking (modelAlias : String) : Except PyException ChunkStream :=
  if modelAlias = "primary" then .error (.providerError "throttled" .throttled)
  else .ok { chunks := [{ deltaText := "h" }, { deltaText := "i" }], failure := some (.providerError "cut" .throttled) }

/-- Every model answers, and the policy has no fallback models. -/
def withoutFallback : World := { answering with
  policy := fun _ => .ok { Scenario.policy with fallbackPolicy := {} } }

/-- The primary model is unavailable. -/
def primaryDown : WorldState := { fresh with
  health := { fresh.health with consecutiveFailures := fun modelAlias => if modelAlias = "primary"
    then 5 else 0 } }

/-- The policy allows the results to be replayed. -/
def caching : World := { throttled with
  policy := fun _ => .ok {
    Scenario.policy with idempotencyPolicy := { allowResponseCaching := true } } }

/-- Results are to be replayed for longer than `datetime` lasts. -/
def endless : World := { throttled with
  policy := fun _ => .ok { Scenario.policy with
    idempotencyPolicy := { allowResponseCaching := true, retentionSeconds := 1000000000000000 } } }

/-- The policy does not allow the capability, and allows the results to be replayed. -/
def barred : World := { throttled with
  policy := fun _ => .ok { policyFields with
    allowedCapabilities := ["vision"]
    allowedCapabilities_ne := by decide
    idempotencyPolicy := { allowResponseCaching := true } } }

/-- Nothing may serve the request. -/
def unavailable : InferenceResult where
  decision :=
    { decisionId := "dec_1", applicationId := "app", createdAt := 0, policyId := "pol",
      policyVersion := 1
      capability := "chat", selectedModelAlias := none, provider := none
      reasonCodes := [.requiredCapabilityUnavailable], consideredCandidates := [] }
  response := none

def unavailableJson : String :=
  "\x7b\"decision\":\x7b\"decision_id\":\"dec_1\",\"application_id\":\"app\",\"created_at\":\"1970-01-01T00:00:00Z\"," ++
  "\"policy_id\":\"pol\",\"policy_version\":1,\"capability\":\"chat\",\"selected_model_alias\":null,\"provider\":null," ++
  "\"fallback_used\":false,\"reason_codes\":[\"REQUIRED_CAPABILITY_UNAVAILABLE\"],\"considered_candidates\":[]," ++
  "\"estimated_usage\":null,\"estimated_cost\":null\x7d,\"response\":null,\"invocation_attempts\":[]\x7d"

/-- A store that has to write and read the one result. -/
def table : DynamoDbIdempotencyStore where
  modelDumpJson _ := unavailableJson
  modelValidateJson json :=
    if json = unavailableJson then .ok unavailable else .error (.other "ValidationError")

theorem table_roundTrip (result : InferenceResult) :
    table.modelValidateJson (table.modelDumpJson result) = .ok unavailable := by
  simp [table]

/-- A store that writes no other result. -/
def tableOfUnavailable : DynamoDbIdempotencyStore := { table with
  modelDumpJson := fun result => if result = unavailable then unavailableJson else "" }

end Scenario

end ModelRouter
