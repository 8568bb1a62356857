import ModelRouter.Application.AttemptLoop
import ModelRouter.Application.World

/-!
# The use cases in a world

In a world the use cases compute: the evaluation a decision (`exec_evaluate`), the attempt loops the
calls of a prefix of the chain (`exec_attemptChain`, `exec_streamChain`), and the recording a trail
(`exec_record`).
-/

namespace ModelRouter
open Effects Prog RouteEvaluationService

/-! ## The evaluation in a world -/

namespace RouteEvaluationService

variable (service : RouteEvaluationService) (request : InferenceRequest) (policy : RoutingPolicy)
  (health : String → ModelHealthStatus)

/-- The candidates of the request, with the health of each model. -/
def candidatesIn : Except PyException (List RouteCandidate) :=
  (service.requestedModels request).mapM fun model =>
    service.evaluateModel (resolveEffectiveRequirements request.requirements policy) policy
      request.messages model
      (if service.tracksHealth then health model.modelAlias else .healthy)

/-- The decision of the request. -/
def decisionIn (decisionId : String) (createdAt : Nat) : Except PyException RoutingDecision :=
  if request.requirements.capability ∉ policy.allowedCapabilities ∨
    service.requestedModels request = [] then
    .ok (routingDecision request policy { selected := none } []
      [.requiredCapabilityUnavailable] decisionId createdAt)
  else do
    let candidates ← service.candidatesIn request policy health
    let selection ← service.routeSelection request policy candidates
    .ok (routingDecision request policy selection candidates
      (routeReasonCodes selection) decisionId createdAt)

end RouteEvaluationService

namespace World

variable {world : World} {service : RouteEvaluationService} {request : InferenceRequest}
  {policy : RoutingPolicy} {s : WorldState}

theorem exec_buildDecision (selection : RouteSelection) (candidates : List RouteCandidate)
    (reasonCodes : List RoutingReasonCode) :
    exec world.answer (buildDecision request policy selection candidates reasonCodes) s =
      (.ok (routingDecision request policy selection candidates reasonCodes world.decisionId
        world.now), s) := rfl

theorem exec_healthStatus (modelAlias : String) :
    exec world.answer (service.healthStatus modelAlias) s =
    (.ok (if service.tracksHealth then s.health.getHealth modelAlias else .healthy), s) := by
  unfold healthStatus
  split <;> rfl

theorem exec_buildRouteCandidates (requirements : EffectiveRoutingRequirements)
    (messages : List Message) (models : List ModelDefinition) :
    exec world.answer (service.buildRouteCandidates requirements policy messages models) s =
      (models.mapM fun model => service.evaluateModel requirements policy messages model
        (if service.tracksHealth then s.health.getHealth model.modelAlias else .healthy), s) := by
  induction models with
  | nil => rfl
  | cons model models ih =>
      rw [buildRouteCandidates, exec_bind_ok (exec_healthStatus model.modelAlias), List.mapM_cons]
      cases hmodel : service.evaluateModel requirements policy messages model
          (if service.tracksHealth then s.health.getHealth model.modelAlias else .healthy) with
      | error x => rfl
      | ok candidate =>
          rw [ofExcept_ok, bind_ret, exec_bind, ih]
          cases hmodels : List.mapM (fun model =>
            service.evaluateModel requirements policy messages model
            (if service.tracksHealth then s.health.getHealth model.modelAlias
              else .healthy)) models <;> rfl

theorem exec_evaluate (hpolicy : world.policy request.applicationId = .ok policy) :
    exec world.answer (service.evaluate request) s =
      (service.decisionIn request policy s.health.getHealth world.decisionId world.now, s) := by
  have hresolve : exec world.answer (ask (.resolve request.applicationId)) s = (.ok policy, s) := by
    rw [exec_perform]
    exact congrArg (·, s) hpolicy
  rw [evaluate, exec_bind_ok hresolve]
  have hrequested : service.modelCatalogue.findByCapability
      (resolveEffectiveRequirements request.requirements policy).capability =
        service.requestedModels request := rfl
  unfold decisionIn
  dsimp only
  rw [hrequested]
  by_cases hallowed : request.requirements.capability ∉ policy.allowedCapabilities
  · rw [if_pos hallowed, if_pos (Or.inl hallowed)]
    exact exec_buildDecision _ _ _
  · rw [if_neg hallowed]
    by_cases hmodels : service.requestedModels request = []
    · rw [if_pos (Or.inr hmodels), if_pos hmodels]
      exact exec_buildDecision _ _ _
    · have hcandidates : exec world.answer (service.buildRouteCandidates
          (resolveEffectiveRequirements request.requirements policy) policy request.messages
          (service.requestedModels request)) s =
            (service.candidatesIn request policy s.health.getHealth, s) :=
        exec_buildRouteCandidates _ _ _
      rw [if_neg (not_or.mpr ⟨hallowed, hmodels⟩), if_neg hmodels, exec_bind, hcandidates]
      cases service.candidatesIn request policy s.health.getHealth with
      | error x => rfl
      | ok candidates =>
          show exec world.answer (Prog.ofExcept (service.routeSelection request policy candidates)
              >>= fun selection =>
            buildDecision request policy selection candidates (routeReasonCodes selection)) s =
              (service.routeSelection request policy candidates >>= fun selection =>
                .ok (routingDecision request policy
                selection candidates (routeReasonCodes selection) world.decisionId world.now), s)
          cases service.routeSelection request policy candidates <;> rfl

theorem exec_evaluate_error {x : PyException}
    (hpolicy : world.policy request.applicationId = .error x) :
    exec world.answer (service.evaluate request) s = (.error x, s) := by
  refine exec_bind_error ?_
  rw [exec_perform]
  exact congrArg (·, s) hpolicy

/-! ## The attempt loops in a world -/

def callOutcome : ModelOutcome → CallOutcome
  | .success response _ _ => .response response
  | .failure message category => .failure message category

/-- The call of a model, whose start and end are two readings of the clock. -/
def call (world : World) (readings : Nat) (modelAlias : String) : ProviderCall where
  modelAlias := modelAlias
  outcome := callOutcome (world.outcome modelAlias)
  latency := latencyMs (world.monotonic readings) (world.monotonic (readings + 1))

/-- The calls of a loop over the chain. -/
def calls (world : World) : Nat → List String → List ProviderCall
  | _, [] => []
  | readings, modelAlias :: chain =>
    if (world.call readings modelAlias).Final then [world.call readings modelAlias]
    else world.call readings modelAlias :: calls world (readings + 2) chain

variable {orchestrator : InvocationOrchestrator} {decision : RoutingDecision}
  {effective : EffectiveRoutingRequirements}

open InvocationOrchestrator

theorem exec_recordHealthOutcome (modelAlias : String) (status : InvocationAttemptStatus)
    (s : WorldState) :
    ∃ health, exec world.answer (orchestrator.recordHealthOutcome modelAlias status) s =
      (.ok (), { s with health := health }) := by
  unfold recordHealthOutcome
  split
  · exact ⟨_, rfl⟩
  · exact ⟨s.health, rfl⟩

theorem answer_monotonic (s : WorldState) : world.answer .monotonic s =
    (.ok (world.monotonic s.readings), { s with readings := s.readings + 1 }) := rfl

theorem call_of_success {modelAlias : String} {response : ProviderResponse}
    {first : ProviderResponseChunk} {chunks : List ProviderResponseChunk}
    (h : world.outcome modelAlias = .success response first chunks)
    (readings : Nat) : world.call readings modelAlias = ⟨modelAlias, .response response,
      latencyMs (world.monotonic readings) (world.monotonic (readings + 1))⟩ := by
  rw [call, h]
  rfl

theorem call_of_failure {modelAlias message : String} {category : ProviderErrorCategory}
    (h : world.outcome modelAlias = .failure message category) (readings : Nat) :
    world.call readings modelAlias = ⟨modelAlias, .failure message category,
      latencyMs (world.monotonic readings) (world.monotonic (readings + 1))⟩ := by
  rw [call, h]
  rfl

theorem exec_attemptChain (chain : List String) (st : Attempts) (s : WorldState) :
    ∃ s', s'.trail = s.trail ∧
      exec world.answer (orchestrator.attemptChain request decision effective chain st) s =
        (.ok ((world.calls s.readings chain).foldl (Attempts.extend decision) st), s') := by
  induction chain generalizing st s with
  | nil => exact ⟨s, rfl, rfl⟩
  | cons modelAlias chain ih =>
      rw [attemptChain, exec_perform_bind (answer_monotonic s), calls]
      cases houtcome : world.outcome modelAlias with
      | success response first chunks =>
          have hcall := call_of_success houtcome s.readings
          have hreply : ∀ s', world.answer
              (.invoke (providerRequest request effective modelAlias)) s' = (.ok response, s') :=
            fun s' => by simp only [answer, providerRequest, houtcome, ModelOutcome.response]
          obtain ⟨health, hrecorded⟩ :=
            @exec_recordHealthOutcome world orchestrator modelAlias .succeeded
            { s with readings := s.readings + 1 + 1 }
          rw [exec_tryPerform_bind (hreply _)]
          dsimp only
          have hfinal : (world.call s.readings modelAlias).Final := hcall ▸ Or.inl rfl
          rw [exec_perform_bind (answer_monotonic _), exec_bind_ok hrecorded, if_pos hfinal, hcall]
          exact ⟨{ s with health := health, readings := s.readings + 2 }, rfl, rfl⟩
      | failure message category =>
          have hcall := call_of_failure houtcome s.readings
          have hreply : ∀ s', world.answer
              (.invoke (providerRequest request effective modelAlias)) s' =
              (.error (.providerError message category), s') :=
            fun s' => by simp only [answer, providerRequest, houtcome, ModelOutcome.response]
          obtain ⟨health, hrecorded⟩ := @exec_recordHealthOutcome world orchestrator modelAlias
            (statusForProviderErrorCategory category) { s with readings := s.readings + 1 + 1 }
          rw [exec_tryPerform_bind (hreply _)]
          dsimp only
          have hfinal : (world.call s.readings modelAlias).Final ↔ category = .permanent :=
            hcall ▸ final_failure_iff _ _ _ _
          rw [exec_perform_bind (answer_monotonic _), exec_bind_ok hrecorded]
          by_cases hpermanent : category = .permanent
          · rw [if_pos hpermanent, if_pos (hfinal.mpr hpermanent), hcall]
            exact ⟨{ s with health := health, readings := s.readings + 2 }, rfl, rfl⟩
          · rw [if_neg hpermanent, if_neg fun h => hpermanent (hfinal.mp h), hcall]
            exact ih _ { s with health := health, readings := s.readings + 2 }

theorem exec_yieldFrom (chunks : List ProviderResponseChunk) (s : WorldState) :
    exec world.answer (yieldFrom { chunks := chunks }) s = (.ok (), s) := by
  have hyield : ∀ chunks : List ProviderResponseChunk,
      exec world.answer (yieldChunks chunks) s = (.ok (), s) := by
    intro chunks
    induction chunks with
    | nil => rfl
    | cons chunk chunks ih => exact ih
  rw [yieldFrom, exec_bind_ok (hyield chunks)]
  rfl

/-- A stream loop tries the same calls, and finalizes what they add up to. -/
theorem exec_streamChain (chain : List String) (st : Attempts) (hst : st.succeededAlias = none)
    (s : WorldState) :
    ∃ s', s'.trail = s.trail ∧
      exec world.answer (orchestrator.streamChain request decision effective chain st) s =
        let st' := (world.calls s.readings chain).foldl (Attempts.extend decision) st
        exec world.answer
          (orchestrator.finalizeStream decision st'.succeededAlias st'.extraReasonCodes
            st'.attempts) s' := by
  induction chain generalizing st s with
  | nil =>
      refine ⟨s, rfl, ?_⟩
      simp only [calls, List.foldl_nil, hst]
      rfl
  | cons modelAlias chain ih =>
      rw [streamChain, exec_perform_bind (answer_monotonic s), calls]
      cases houtcome : world.outcome modelAlias with
      | success response first chunks =>
          have hcall := call_of_success houtcome s.readings
          have hfinal : (world.call s.readings modelAlias).Final := hcall ▸ Or.inl rfl
          have hreply : ∀ s', world.answer
              (.invokeStream (providerRequest request effective modelAlias)) s' =
              (.ok { chunks := first :: chunks }, s') :=
            fun s' => by simp only [answer, providerRequest, houtcome, ModelOutcome.stream]
          obtain ⟨health, hrecorded⟩ :=
            @exec_recordHealthOutcome world orchestrator modelAlias .succeeded
            { s with readings := s.readings + 1 + 1 }
          have hyield : ∀ s', exec world.answer
              (do ask (.yieldChunk first)
                  yieldFrom { chunks := chunks } : Prog Ports Unit).attempt s' =
                (.ok (.ok ()), s') := by
            intro s'
            have hdrained : exec world.answer
                (do ask (.yieldChunk first); yieldFrom { chunks := chunks } : Prog Ports Unit) s' =
                  (.ok (), s') :=
              exec_yieldFrom chunks s'
            rw [exec_attempt, hdrained]
          rw [exec_tryPerform_bind (hreply _), if_pos hfinal, hcall]
          dsimp only [firstChunk]
          rw [streamCommitted, exec_bind_ok (hyield _)]
          dsimp only
          rw [exec_perform_bind (answer_monotonic _), exec_bind_ok hrecorded]
          exact ⟨{ s with health := health, readings := s.readings + 2 }, rfl, rfl⟩
      | failure message category =>
          have hcall := call_of_failure houtcome s.readings
          have hfinal : (world.call s.readings modelAlias).Final ↔ category = .permanent :=
            hcall ▸ final_failure_iff _ _ _ _
          have hreply : ∀ s', world.answer
              (.invokeStream (providerRequest request effective modelAlias)) s' =
              (.error (.providerError message category), s') :=
            fun s' => by simp only [answer, providerRequest, houtcome, ModelOutcome.stream]
          obtain ⟨health, hrecorded⟩ := @exec_recordHealthOutcome world orchestrator modelAlias
            (statusForProviderErrorCategory category) { s with readings := s.readings + 1 + 1 }
          rw [exec_tryPerform_bind (hreply _)]
          dsimp only [firstChunk]
          rw [exec_perform_bind (answer_monotonic _), exec_bind_ok hrecorded]
          by_cases hpermanent : category = .permanent
          · rw [if_pos hpermanent, if_pos (hfinal.mpr hpermanent), hcall]
            refine ⟨{ s with health := health, readings := s.readings + 2 }, rfl, ?_⟩
            simp only [List.foldl_cons, List.foldl_nil, Attempts.extend, ProviderCall.response, Option.map_none, hst]
            rfl
          · rw [if_neg hpermanent, if_neg fun h => hpermanent (hfinal.mp h), hcall]
            exact ih (st.failed modelAlias category _) hst { s with health := health, readings := s.readings + 2 }

/-! ## The trail of a result -/

/-- What recording a result adds. -/
def recordTrail (world : World) (orchestrator : InvocationOrchestrator) (trail : AuditTrail)
    (result : InferenceResult) : AuditTrail where
  saved := if orchestrator.hasDecisionRepository then
      trail.saved ++ [{ decision := result.decision, invocationAttempts := result.invocationAttempts }]
    else trail.saved
  metrics := if orchestrator.hasMetricsPublisher then
      trail.metrics ++ (resultMetrics result).map fun point =>
        ⟨world.now / 1000, world.metricsPublisher.environment, point⟩
    else trail.metrics
  events := if orchestrator.hasDecisionEventPublisher then
      trail.events ++ [EventBridgeDecisionEventPublisher.buildDetail result]
    else trail.events

theorem exec_persist (result : InferenceResult) (s : WorldState) :
    exec world.answer (orchestrator.persist result) s =
    (.ok (), { s with trail.saved := (world.recordTrail orchestrator s.trail result).saved }) := by
  unfold persist recordTrail
  split <;> rfl

theorem exec_publishMetrics (result : InferenceResult) (s : WorldState) :
    exec world.answer (orchestrator.publishMetrics result) s =
      (.ok (), { s with trail.metrics := (world.recordTrail orchestrator s.trail result).metrics }) := by
  unfold publishMetrics recordTrail
  split
  · rw [exec_perform]
    simp only [answer, EmfMetricsPublisher.publish_ok]
  · rfl

theorem exec_publishDecisionEvent (result : InferenceResult) (s : WorldState) :
    exec world.answer (orchestrator.publishDecisionEvent result) s =
      (.ok (), { s with trail.events := (world.recordTrail orchestrator s.trail result).events
        }) := by
  unfold publishDecisionEvent recordTrail
  split <;> rfl

theorem exec_record (result : InferenceResult) (s : WorldState) :
    exec world.answer (orchestrator.record result) s =
      (.ok result, { s with trail := world.recordTrail orchestrator s.trail result }) := by
  rw [record, exec_bind_ok (exec_persist result s), exec_bind_ok (exec_publishMetrics result _),
    exec_bind_ok (exec_publishDecisionEvent result _)]
  rfl

/-- The trail of the decision the loops end with. -/
def finalTrail (world : World) (orchestrator : InvocationOrchestrator) (trail : AuditTrail)
    (decision : RoutingDecision) (st : Attempts) : AuditTrail :=
  match aggregateDecision decision st.succeededAlias st.extraReasonCodes with
  | .error _ => trail
  | .ok finalDecision => world.recordTrail orchestrator trail
      { decision := finalDecision, response := none, invocationAttempts := st.attempts }

theorem trail_finalizeStream (st : Attempts) (s : WorldState) :
    (exec world.answer
      (orchestrator.finalizeStream decision st.succeededAlias st.extraReasonCodes st.attempts)
        s).2.trail =
        world.finalTrail orchestrator s.trail decision st := by
  unfold finalizeStream finalTrail
  cases aggregateDecision decision st.succeededAlias st.extraReasonCodes with
  | error x => rfl
  | ok finalDecision => rw [ofExcept_ok, bind_ret, exec_record]

/-- Where something is attempted, both use cases record the decision the loops end with. -/
theorem trail_invokeDecision (hne : buildCandidateChain decision policy.fallbackPolicy ≠ [])
    (s : WorldState) :
    (exec world.answer (orchestrator.invokeDecision request decision policy) s).2.trail =
      world.finalTrail orchestrator s.trail decision
        ((world.calls s.readings (buildCandidateChain decision policy.fallbackPolicy)).foldl
          (Attempts.extend decision) {}) := by
  unfold invokeDecision
  dsimp only
  rw [if_neg hne]
  obtain ⟨s', htrail, hexec⟩ := @exec_attemptChain world request orchestrator decision
    (resolveEffectiveRequirements request.requirements policy)
    (buildCandidateChain decision policy.fallbackPolicy) {} s
  rw [exec_bind_ok hexec, finalTrail]
  cases aggregateDecision decision _ _ with
  | error x => exact htrail
  | ok finalDecision =>
      rw [ofExcept_ok, bind_ret, exec_record, ← htrail]
      rfl

theorem trail_streamDecision (hne : buildCandidateChain decision policy.fallbackPolicy ≠ [])
    (s : WorldState) :
    (exec world.answer (orchestrator.streamDecision request decision policy) s).2.trail =
      world.finalTrail orchestrator s.trail decision
        ((world.calls s.readings (buildCandidateChain decision policy.fallbackPolicy)).foldl
          (Attempts.extend decision) {}) := by
  unfold streamDecision
  dsimp only
  rw [if_neg hne]
  obtain ⟨s', htrail, hexec⟩ := @exec_streamChain world request orchestrator decision
    (resolveEffectiveRequirements request.requirements policy)
    (buildCandidateChain decision policy.fallbackPolicy) {} rfl s
  rw [hexec, trail_finalizeStream, htrail]

theorem trail_invokeDecision_nil (hnil : buildCandidateChain decision policy.fallbackPolicy = [])
    (s : WorldState) :
    (exec world.answer (orchestrator.invokeDecision request decision policy) s).2.trail =
      world.recordTrail orchestrator s.trail { decision := decision, response := none } := by
  unfold invokeDecision
  dsimp only
  rw [if_pos hnil, exec_record]

theorem trail_streamDecision_nil (hnil : buildCandidateChain decision policy.fallbackPolicy = [])
    (s : WorldState) :
    (exec world.answer (orchestrator.streamDecision request decision policy) s).2.trail =
      world.finalTrail orchestrator s.trail decision {} := by
  unfold streamDecision
  dsimp only
  rw [if_pos hnil]
  exact trail_finalizeStream {} s

end World

end ModelRouter
