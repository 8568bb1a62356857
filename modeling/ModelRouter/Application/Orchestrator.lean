import ModelRouter.Application.RouteEvaluation

/-!
# The invocation orchestrator

`InvocationOrchestrator.invoke` evaluates a route, attempts the models of the candidate chain in
turn and records the aggregated result; with an idempotency key it does so under a reservation.
`invokeStream` is the same use case over a streaming provider.

Spans and their attributes are left out: nothing reads them.
-/

namespace ModelRouter
open Effects Prog

/-- The optional ports are present or absent; `computeRequestHash` is `domain.idempotency`'s. -/
structure InvocationOrchestrator where
  routeEvaluationService : RouteEvaluationService
  computeRequestHash : InferenceRequest → Except PyException String
  hasIdempotencyStore : Bool := true
  hasDecisionRepository : Bool := true
  hasModelHealthRepository : Bool := true
  hasMetricsPublisher : Bool := true
  hasDecisionEventPublisher : Bool := true
  /-- The model provider implements `StreamingModelProvider`. -/
  providerStreams : Bool := true

namespace InvocationOrchestrator

/-! ## The candidate chain -/

def eligibleAliases (decision : RoutingDecision) : List String :=
  (decision.consideredCandidates.filter (·.eligible)).map (·.modelAlias)

/-- The loop over the configured fallback aliases. -/
def extendChain (eligible : List String) (maximumAttempts : Nat) :
    List String → List String → List String
  | [], chain => chain
  | modelAlias :: aliases, chain =>
    if maximumAttempts ≤ chain.length then chain
    else if modelAlias ∈ eligible ∧ modelAlias ∉ chain then
      extendChain eligible maximumAttempts aliases (chain ++ [modelAlias])
    else extendChain eligible maximumAttempts aliases chain

def buildCandidateChain (decision : RoutingDecision) (fallbackPolicy : FallbackPolicy) :
    List String :=
  extendChain (eligibleAliases decision) fallbackPolicy.maximumAttempts
    fallbackPolicy.fallbackModelAliases
    decision.selectedModelAlias.toList

/-! ## The final decision -/

/-- `_aggregate_decision`; the lookup of the candidate that succeeded is `next` over a generator. -/
def aggregateDecision (original : RoutingDecision) (succeededAlias : Option String)
    (extraReasonCodes : List RoutingReasonCode) : Except PyException RoutingDecision :=
  let fallbackUsed := succeededAlias.any fun modelAlias =>
    some modelAlias ≠ original.selectedModelAlias
  let originalCodes := original.reasonCodes.filter (· ≠ .noEligibleModel)
  let reasonCodes := sortReasonCodes (originalCodes ++ extraReasonCodes)
  match succeededAlias with
  | none => .ok { original with
      selectedModelAlias := none, provider := none, fallbackUsed := fallbackUsed
      reasonCodes := reasonCodes, estimatedUsage := none, estimatedCost := none }
  | some modelAlias =>
    match original.consideredCandidates.find? (·.modelAlias = modelAlias) with
    | none => .error .stopIteration
    | some selected => .ok { original with
        selectedModelAlias := some modelAlias, provider := some selected.provider
        fallbackUsed := fallbackUsed, reasonCodes := reasonCodes
        estimatedUsage := some selected.estimatedUsage, estimatedCost :=
          some selected.estimatedCost }

variable (orchestrator : InvocationOrchestrator)

/-! ## Recording -/

def recordHealthOutcome (modelAlias : String) (status : InvocationAttemptStatus) :
    Prog Ports Unit :=
  if orchestrator.hasModelHealthRepository then ask (.recordOutcome modelAlias status) else ret ()

def persist (result : InferenceResult) : Prog Ports Unit :=
  if orchestrator.hasDecisionRepository then
    ask (.save { decision := result.decision, invocationAttempts := result.invocationAttempts })
  else ret ()

def publishMetrics (result : InferenceResult) : Prog Ports Unit :=
  if orchestrator.hasMetricsPublisher then ask (.publishMetrics result) else ret ()

def publishDecisionEvent (result : InferenceResult) : Prog Ports Unit :=
  if orchestrator.hasDecisionEventPublisher then ask (.publishEvent result) else ret ()

/-- Persist and publish a result. -/
def record (result : InferenceResult) : Prog Ports InferenceResult := do
  orchestrator.persist result
  orchestrator.publishMetrics result
  orchestrator.publishDecisionEvent result
  ret result

/-! ## Invocation -/

/-- What the attempt loops accumulate. -/
structure Attempts where
  attempts : List InvocationAttempt := []
  extraReasonCodes : List RoutingReasonCode := []
  response : Option ProviderResponse := none
  succeededAlias : Option String := none

/-- The loops' state after an attempt that failed in a category. -/
def Attempts.failed (st : Attempts) (modelAlias : String) (category : ProviderErrorCategory)
    (latency : Nat) : Attempts :=
  { st with
    attempts := st.attempts ++ [⟨modelAlias, statusForProviderErrorCategory category, latency⟩]
    extraReasonCodes := st.extraReasonCodes ++
      (reasonCodeForProviderErrorCategory category).toList }

def fallbackCode (decision : RoutingDecision) (modelAlias : String) : List RoutingReasonCode :=
  if some modelAlias ≠ decision.selectedModelAlias then [.fallbackSelected] else []

def providerRequest (request : InferenceRequest) (effective : EffectiveRoutingRequirements)
    (modelAlias : String) : ProviderRequest where
  modelAlias := modelAlias
  messages := request.messages
  maxOutputTokens := effective.maximumOutputTokens
  requiresToolUse := effective.requiresToolUse
  requiresStructuredOutput := effective.requiresStructuredOutput
  messages_ne := request.messages_ne
  maxOutputTokens_pos := effective.maximumOutputTokens_pos
  temperature_range := inRange_none
  topP_range := inRange_none

def attemptChain (request : InferenceRequest) (decision : RoutingDecision)
    (effective : EffectiveRoutingRequirements) : List String → Attempts → Prog Ports Attempts
  | [], st => ret st
  | candidateAlias :: chain, st => do
    let startedAt ← ask .monotonic
    let reply ← tryAsk (.invoke (providerRequest request effective candidateAlias))
    match reply with
    | .error (.providerError _ category) =>
      let finishedAt ← ask .monotonic
      let st := st.failed candidateAlias category (latencyMs startedAt finishedAt)
      orchestrator.recordHealthOutcome candidateAlias (statusForProviderErrorCategory category)
      if category = .permanent then ret st
      else attemptChain request decision effective chain st
    | .error x => raise x
    | .ok response =>
      let finishedAt ← ask .monotonic
      orchestrator.recordHealthOutcome candidateAlias .succeeded
      ret { attempts := st.attempts ++
        [⟨candidateAlias, .succeeded, latencyMs startedAt finishedAt⟩]
            extraReasonCodes := st.extraReasonCodes ++ fallbackCode decision candidateAlias
            response := some response
            succeededAlias := some candidateAlias }

/-- The part of `_invoke_uncached` after the route is evaluated and the policy resolved again. -/
def invokeDecision (request : InferenceRequest) (decision : RoutingDecision)
    (policy : RoutingPolicy) :
    Prog Ports InferenceResult :=
  let chain := buildCandidateChain decision policy.fallbackPolicy
  if chain = [] then orchestrator.record { decision := decision, response := none }
  else do
    let effective := resolveEffectiveRequirements request.requirements policy
    let st ← orchestrator.attemptChain request decision effective chain {}
    let finalDecision ← ofExcept (aggregateDecision decision st.succeededAlias st.extraReasonCodes)
    orchestrator.record
      { decision := finalDecision
        response := if st.succeededAlias.isSome then st.response else none
        invocationAttempts := st.attempts }

def invokeUncached (request : InferenceRequest) : Prog Ports InferenceResult := do
  let decision ← orchestrator.routeEvaluationService.evaluate request
  let policy ← ask (.resolve request.applicationId)
  orchestrator.invokeDecision request decision policy

/-- The end of `_invoke_with_idempotency`: the policy is resolved once more and the reservation
completed. -/
def completeReservation (request : InferenceRequest) (idempotencyKey requestHash : String)
    (result : InferenceResult) : Prog Ports InferenceResult := do
  let policy ← ask (.resolve request.applicationId)
  ask (.complete request.applicationId idempotencyKey requestHash result
    policy.idempotencyPolicy.allowResponseCaching policy.idempotencyPolicy.retentionSeconds)
  ret result

/-- `_invoke_with_idempotency` from a reservation that is new. -/
def invokeReserved (request : InferenceRequest) (idempotencyKey requestHash : String) :
    Prog Ports InferenceResult := do
  match ← (orchestrator.invokeUncached request).attempt with
  | .error x =>
    ask (.release request.applicationId idempotencyKey)
    raise x
  | .ok result => completeReservation request idempotencyKey requestHash result

def invokeWithIdempotency (request : InferenceRequest) (idempotencyKey : String) :
    Prog Ports InferenceResult := do
  let requestHash ← ofExcept (orchestrator.computeRequestHash request)
  let reservation ← ask (.reserve request.applicationId idempotencyKey requestHash)
  match reservation.outcome with
  | .conflict => raise (.idempotencyConflictError idempotencyKey)
  | .inProgress => raise (.idempotencyInProgressError idempotencyKey)
  | .completed => match reservation.cachedResult with
    | none => raise (.assertionError "COMPLETED reservation must carry a cached_result")
    | some result => ret result
  | .new => orchestrator.invokeReserved request idempotencyKey requestHash

def invoke (request : InferenceRequest) : Prog Ports InferenceResult :=
  match request.idempotencyKey with
  | none => orchestrator.invokeUncached request
  | some idempotencyKey =>
    if orchestrator.hasIdempotencyStore
      then orchestrator.invokeWithIdempotency request idempotencyKey
    else orchestrator.invokeUncached request

/-! ## Streaming -/

/-- `_finalize_stream`. -/
def finalizeStream (decision : RoutingDecision) (succeededAlias : Option String)
    (extraReasonCodes : List RoutingReasonCode) (attempts : List InvocationAttempt) :
    Prog Ports InferenceResult := do
  let finalDecision ← ofExcept (aggregateDecision decision succeededAlias extraReasonCodes)
  orchestrator.record { decision := finalDecision, response := none, invocationAttempts := attempts }

/-- `next(self._model_provider.invoke_stream(..))`: the first chunk and the rest of the stream. -/
def firstChunk : Except PyException ChunkStream →
    Except PyException (ProviderResponseChunk × ChunkStream)
  | .error x => .error x
  | .ok { chunks := chunk :: chunks, failure := failure } => .ok (chunk, { chunks, failure })
  | .ok { chunks := [], failure := some x } => .error x
  | .ok { chunks := [], failure := none } => .error .stopIteration

def yieldChunks : List ProviderResponseChunk → Prog Ports Unit
  | [] => ret ()
  | chunk :: chunks => do
    ask (.yieldChunk chunk)
    yieldChunks chunks

/-- `yield from` a stream. -/
def yieldFrom (stream : ChunkStream) : Prog Ports Unit := do
  yieldChunks stream.chunks
  match stream.failure with
  | none => ret ()
  | some x => raise x

/-- The candidate is committed: its chunks are yielded and the result is recorded. -/
def streamCommitted (decision : RoutingDecision) (candidateAlias : String) (startedAt : Nat)
    (stream : ProviderResponseChunk × ChunkStream) (st : Attempts) : Prog Ports InferenceResult :=
      do
  let extraReasonCodes := st.extraReasonCodes ++ fallbackCode decision candidateAlias
  match ← (do ask (.yieldChunk stream.1); yieldFrom stream.2 : Prog Ports Unit).attempt with
  | .error (.providerError message category) =>
    let finishedAt ← ask .monotonic
    let attempts := st.attempts ++
      [⟨candidateAlias, statusForProviderErrorCategory category, latencyMs startedAt finishedAt⟩]
    orchestrator.recordHealthOutcome candidateAlias (statusForProviderErrorCategory category)
    let _ ← orchestrator.finalizeStream decision none extraReasonCodes attempts
    raise (.providerError message category)
  | .error x => raise x
  | .ok () =>
    let finishedAt ← ask .monotonic
    let attempts := st.attempts ++ [⟨candidateAlias, .succeeded, latencyMs startedAt finishedAt⟩]
    orchestrator.recordHealthOutcome candidateAlias .succeeded
    orchestrator.finalizeStream decision (some candidateAlias) extraReasonCodes attempts

def streamChain (request : InferenceRequest) (decision : RoutingDecision)
    (effective : EffectiveRoutingRequirements) : List String → Attempts → Prog Ports InferenceResult
  | [], st => orchestrator.finalizeStream decision none st.extraReasonCodes st.attempts
  | candidateAlias :: chain, st => do
    let startedAt ← ask .monotonic
    let reply ← tryAsk (.invokeStream (providerRequest request effective candidateAlias))
    match firstChunk reply with
    | .error (.providerError _ category) =>
      let finishedAt ← ask .monotonic
      let st := st.failed candidateAlias category (latencyMs startedAt finishedAt)
      orchestrator.recordHealthOutcome candidateAlias (statusForProviderErrorCategory category)
      if category = .permanent then
        orchestrator.finalizeStream decision none st.extraReasonCodes st.attempts
      else streamChain request decision effective chain st
    | .error x => raise x
    | .ok stream => orchestrator.streamCommitted decision candidateAlias startedAt stream st

def streamDecision (request : InferenceRequest) (decision : RoutingDecision)
    (policy : RoutingPolicy) :
    Prog Ports InferenceResult :=
  let chain := buildCandidateChain decision policy.fallbackPolicy
  if chain = [] then orchestrator.finalizeStream decision none [] []
  else
    let effective := resolveEffectiveRequirements request.requirements policy
    orchestrator.streamChain request decision effective chain {}

/-- A `StopIteration` that leaves the body of a generator becomes a `RuntimeError`. -/
def generator {α : Type} (body : Prog Ports α) : Prog Ports α := do
  match ← body.attempt with
  | .error .stopIteration => raise (.runtimeError "generator raised StopIteration")
  | .error x => raise x
  | .ok a => ret a

def invokeStreamUncached (request : InferenceRequest) : Prog Ports InferenceResult :=
  generator do
    let decision ← orchestrator.routeEvaluationService.evaluate request
    let policy ← ask (.resolve request.applicationId)
    orchestrator.streamDecision request decision policy

/-- `invoke_stream` and the draining of its iterator; the result is what the generator returns. -/
def invokeStream (request : InferenceRequest) : Prog Ports InferenceResult :=
  if request.idempotencyKey.isSome then
    raise (.providerError "invoke_stream does not support idempotency keys (Phase 10c)." .permanent)
  else if !orchestrator.providerStreams then
    raise (.providerError
      "The configured model provider does not implement StreamingModelProvider." .permanent)
  else orchestrator.invokeStreamUncached request

/-! ## The ports of its parts -/

def RecordingPort : Port → Prop
  | .save _ | .publishMetrics _ | .publishEvent _ => True
  | _ => False

def HealthPort : Port → Prop
  | .recordOutcome _ _ => True
  | _ => False

/-- The ports of the idempotency store. -/
def StorePort : Port → Prop
  | .reserve _ _ _ | .complete _ _ _ _ _ _ | .release _ _ => True
  | _ => False

theorem only_recordHealthOutcome (modelAlias : String) (status : InvocationAttemptStatus) :
    Only HealthPort (orchestrator.recordHealthOutcome modelAlias status) := by
  unfold recordHealthOutcome
  split
  · exact Only.perform trivial
  · trivial

theorem only_publishMetrics (result : InferenceResult) :
    Only (fun port : Port => port = .publishMetrics result)
      (orchestrator.publishMetrics result) := by
  unfold publishMetrics
  split
  · exact Only.perform rfl
  · trivial

theorem only_publishDecisionEvent (result : InferenceResult) :
    Only (fun port : Port => port = .publishEvent result)
      (orchestrator.publishDecisionEvent result) := by
  unfold publishDecisionEvent
  split
  · exact Only.perform rfl
  · trivial

theorem only_record (result : InferenceResult) :
    Only RecordingPort (orchestrator.record result) := by
  have hpersist : Only RecordingPort (orchestrator.persist result) := by
    unfold persist
    split
    · exact Only.perform trivial
    · trivial
  refine Only.bind hpersist fun _ =>
    Only.bind ((orchestrator.only_publishMetrics result).mono ?_) fun _ =>
    Only.bind ((orchestrator.only_publishDecisionEvent result).mono ?_) fun _ => trivial
  all_goals
    rintro port rfl
    trivial

/-- The ports of an attempt loop. -/
def LoopPort : Port → Prop
  | .monotonic | .invoke _ | .recordOutcome _ _ => True
  | _ => False

theorem only_attemptChain (request : InferenceRequest) (decision : RoutingDecision)
    (effective : EffectiveRoutingRequirements) (chain : List String) (st : Attempts) :
    Only LoopPort (orchestrator.attemptChain request decision effective chain st) := by
  have hhealth : ∀ modelAlias status,
      Only LoopPort (orchestrator.recordHealthOutcome modelAlias status) := by
    intro modelAlias status
    refine (orchestrator.only_recordHealthOutcome modelAlias status).mono fun port h => ?_
    cases port <;> first | exact trivial | exact h.elim
  induction chain generalizing st with
  | nil => trivial
  | cons candidateAlias chain ih =>
      refine Only.bind (Only.perform trivial) fun startedAt => ?_
      refine Only.tryPerformBind trivial fun reply => ?_
      cases reply with
      | ok response =>
          exact Only.bind (Only.perform trivial) fun finishedAt =>
            Only.bind (hhealth _ _) fun _ => trivial
      | error x =>
          cases x with
          | providerError message category =>
              refine Only.bind (Only.perform trivial) fun finishedAt =>
                Only.bind (hhealth _ _) fun _ => ?_
              split
              · trivial
              · exact ih _
          | _ => trivial

end InvocationOrchestrator

end ModelRouter
