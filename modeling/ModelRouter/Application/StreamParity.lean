import ModelRouter.Application.Execution
import ModelRouter.Lib.Outcome

/-!
# The audit trails of the two use cases

In one world, from one state, `invoke` and a drained `invoke_stream` evaluate alike
(`exec_evaluate`), try the same calls (`exec_attemptChain`, `exec_streamChain`) and record the same
result, except where the chain is empty: `invoke` records the decision as it is, `invoke_stream`
through `_aggregate_decision`, which drops `NO_ELIGIBLE_MODEL`. `stream_parity_iff` : latencies
aside, the trails agree exactly when the request is not `Unattemptable`.
-/

namespace ModelRouter
open Effects Prog RouteEvaluationService

/-! ## Latency aside -/

def InvocationAttempt.withoutLatency (attempt : InvocationAttempt) : InvocationAttempt :=
  { attempt with latencyMs := 0 }

def AuditRecord.withoutLatency (auditRecord : AuditRecord) : AuditRecord :=
  { auditRecord with invocationAttempts := auditRecord.invocationAttempts.map (·.withoutLatency) }

def MetricPoint.withoutLatency (point : MetricPoint) : MetricPoint :=
  if point.name = "InvocationLatencyMs" then { point with value := .int 0 } else point

def MetricLine.withoutLatency (line : MetricLine) : MetricLine :=
  { line with point := line.point.withoutLatency }

def AuditTrail.withoutLatency (trail : AuditTrail) : AuditTrail where
  saved := trail.saved.map (·.withoutLatency)
  metrics := trail.metrics.map (·.withoutLatency)
  events := trail.events

def ProviderCall.withoutLatency (call : ProviderCall) : ProviderCall := { call with latency := 0 }

/-! ## Requests that are not attempted -/

namespace RouteEvaluationService

variable (service : RouteEvaluationService) (request : InferenceRequest) (policy : RoutingPolicy)
  (health : String → ModelHealthStatus)

/-- The capability is offered, but the strategy selects no candidate and no eligible one is a
fallback. -/
def Unattemptable : Prop :=
  request.requirements.capability ∈ policy.allowedCapabilities ∧
  service.requestedModels request ≠ [] ∧
    ∃ candidates selection, service.candidatesIn request policy health = .ok candidates ∧
      service.routeSelection request policy candidates = .ok selection ∧ selection.selected = none ∧
      ∀ candidate ∈ candidates, candidate.eligible →
        candidate.modelAlias ∉ policy.fallbackPolicy.fallbackModelAliases

end RouteEvaluationService

namespace World

variable {world : World}

/-! ## Two clocks -/

/-- The same world with another clock. -/
def withClock (world : World) (monotonic : Nat → Nat) : World :=
  { world with monotonic := monotonic }

theorem calls_withClock (monotonic : Nat → Nat) (chain : List String) (readings readings' : Nat) :
    ((world.withClock monotonic).calls readings' chain).map (·.withoutLatency) =
      (world.calls readings chain).map (·.withoutLatency) := by
  induction chain generalizing readings readings' with
  | nil => rfl
  | cons modelAlias chain ih =>
      have hcall : ((world.withClock monotonic).call readings' modelAlias).withoutLatency =
          (world.call readings modelAlias).withoutLatency := rfl
      have hfinal : ((world.withClock monotonic).call readings' modelAlias).Final ↔
          (world.call readings modelAlias).Final := Iff.rfl
      rw [calls, calls]
      by_cases h : (world.call readings modelAlias).Final
      · rw [if_pos h, if_pos (hfinal.mpr h)]
        rfl
      · rw [if_neg h, if_neg fun h' => h (hfinal.mp h'), List.map_cons, List.map_cons,
          ih _ _, hcall]

end World

namespace InvocationOrchestrator

def Attempts.withoutLatency (st : Attempts) : Attempts :=
  { st with attempts := st.attempts.map (·.withoutLatency) }

variable {decision : RoutingDecision}

theorem foldl_withoutLatency (calls : List ProviderCall) (st : Attempts) :
    (calls.foldl (Attempts.extend decision) st).withoutLatency =
      (calls.map (·.withoutLatency)).foldl (Attempts.extend decision) st.withoutLatency := by
  induction calls generalizing st with
  | nil => rfl
  | cons call calls ih =>
      have hextend : (Attempts.extend decision st call).withoutLatency =
          Attempts.extend decision st.withoutLatency call.withoutLatency := by
        unfold Attempts.extend Attempts.withoutLatency
        dsimp only
        rw [List.map_append]
        rfl
      rw [List.foldl_cons, ih, hextend]
      rfl

end InvocationOrchestrator

theorem decisionMetrics_withoutLatency (decision : RoutingDecision) :
    (decisionMetrics decision).map (·.withoutLatency) = decisionMetrics decision := by
  unfold decisionMetrics
  cases decision.estimatedCost <;> simp [MetricPoint.withoutLatency]

theorem attemptMetrics_withoutLatency (attempt : InvocationAttempt) :
    (attemptMetrics attempt).map (·.withoutLatency) = attemptMetrics attempt.withoutLatency := by
  unfold attemptMetrics InvocationAttempt.withoutLatency
  by_cases h : attempt.status = .succeeded <;> simp [h, MetricPoint.withoutLatency]

theorem resultMetrics_withoutLatency (result : InferenceResult) :
    (resultMetrics result).map (·.withoutLatency) = decisionMetrics result.decision ++
      (result.invocationAttempts.map (·.withoutLatency)).flatMap attemptMetrics := by
  rw [resultMetrics, List.map_append, decisionMetrics_withoutLatency, List.map_flatMap,
    List.flatMap_map]
  simp only [attemptMetrics_withoutLatency]

namespace World

variable {world : World} {orchestrator : InvocationOrchestrator} {decision : RoutingDecision}

/-- The trail of a result, latencies aside, depends on the decision and the attempts, latencies
aside. -/
theorem recordTrail_withoutLatency {trail : AuditTrail} {result result' : InferenceResult}
    (monotonic : Nat → Nat) (hdecision : result.decision = result'.decision)
    (hattempts : result.invocationAttempts.map (·.withoutLatency) =
      result'.invocationAttempts.map (·.withoutLatency)) :
    (world.recordTrail orchestrator trail result).withoutLatency =
      ((world.withClock monotonic).recordTrail orchestrator trail result').withoutLatency := by
  have hmetrics : ((resultMetrics result).map (·.withoutLatency)) =
      (resultMetrics result').map (·.withoutLatency) := by
    rw [resultMetrics_withoutLatency, resultMetrics_withoutLatency, hdecision, hattempts]
  have hlines : ∀ (timestamp : Nat) (environment : String) (points : List MetricPoint),
      (points.map fun point => (⟨timestamp, environment, point⟩ : MetricLine)).map
        (·.withoutLatency) =
        (points.map (·.withoutLatency)).map fun point => ⟨timestamp, environment, point⟩ := by
    intro timestamp environment points
    rw [List.map_map, List.map_map]
    rfl
  have hevents : EventBridgeDecisionEventPublisher.buildDetail result =
      EventBridgeDecisionEventPublisher.buildDetail result' := by
    unfold EventBridgeDecisionEventPublisher.buildDetail
    rw [hdecision]
  unfold AuditTrail.withoutLatency recordTrail withClock
  dsimp only
  congr 1
  · split
    · rw [List.map_append, List.map_append]
      simp [AuditRecord.withoutLatency, hdecision, hattempts]
    · rfl
  · split
    · rw [List.map_append, List.map_append, hlines, hlines, hmetrics]
    · rfl
  · rw [hevents]

theorem finalTrail_withoutLatency {trail : AuditTrail} {st st' : InvocationOrchestrator.Attempts}
    (monotonic : Nat → Nat) (h : st.withoutLatency = st'.withoutLatency) :
    (world.finalTrail orchestrator trail decision st).withoutLatency =
      ((world.withClock monotonic).finalTrail orchestrator trail decision st').withoutLatency := by
  obtain ⟨attempts, extraReasonCodes, response, succeededAlias⟩ := st
  obtain ⟨attempts', extraReasonCodes', response', succeededAlias'⟩ := st'
  obtain ⟨hattempts, rfl, -, rfl⟩ := InvocationOrchestrator.Attempts.mk.inj h
  unfold finalTrail
  cases InvocationOrchestrator.aggregateDecision decision succeededAlias extraReasonCodes with
  | error x => rfl
  | ok finalDecision => exact recordTrail_withoutLatency monotonic rfl hattempts

end World

namespace InvocationOrchestrator
open World

variable {world : World} {orchestrator : InvocationOrchestrator} {request : InferenceRequest}
  {policy : RoutingPolicy} {decision : RoutingDecision} {s : WorldState}

/-- Something is recorded of a request. -/
def Records (orchestrator : InvocationOrchestrator) : Prop :=
  orchestrator.hasDecisionRepository ∨ orchestrator.hasMetricsPublisher ∨
  orchestrator.hasDecisionEventPublisher

theorem recordTrail_of_not_records (h : ¬ orchestrator.Records) (trail : AuditTrail)
    (result : InferenceResult) :
    world.recordTrail orchestrator trail result = trail := by
  obtain ⟨hrepository, hmetrics, hevents⟩ : ¬ orchestrator.hasDecisionRepository ∧
    ¬ orchestrator.hasMetricsPublisher ∧
      ¬ orchestrator.hasDecisionEventPublisher := by simpa [Records] using h
  unfold recordTrail
  rw [if_neg hrepository, if_neg hmetrics, if_neg hevents]

/-! ## Decisions without a chain -/

theorem aggregate_unavailable (request : InferenceRequest) (policy : RoutingPolicy)
    (decisionId : String) (createdAt : Nat) :
    aggregateDecision (routingDecision request policy { selected := none } []
      [.requiredCapabilityUnavailable]
      decisionId createdAt) none [] = .ok (routingDecision request policy { selected := none } []
        [.requiredCapabilityUnavailable] decisionId createdAt) := by
  have hcodes : sortReasonCodes
      ([RoutingReasonCode.requiredCapabilityUnavailable].filter (· ≠ .noEligibleModel) ++ []) =
      [.requiredCapabilityUnavailable] := by decide
  unfold aggregateDecision routingDecision
  dsimp only
  rw [hcodes]
  rfl

theorem aggregate_noEligibleModel (hcodes : decision.reasonCodes = [.noEligibleModel])
    {final : RoutingDecision}
    (h : aggregateDecision decision none [] = .ok final) : final.reasonCodes = [] := by
  cases h
  rw [hcodes]
  show sortReasonCodes ([RoutingReasonCode.noEligibleModel].filter (· ≠ .noEligibleModel) ++ []) =
      []
  decide

theorem recordTrail_ne {trail : AuditTrail} {result result' : InferenceResult}
    (hrecords : orchestrator.Records)
    (monotonic : Nat → Nat) (hcodes : result.decision.reasonCodes = [.noEligibleModel])
    (hcodes' : result'.decision.reasonCodes = []) :
    (world.recordTrail orchestrator trail result).withoutLatency ≠
      ((world.withClock monotonic).recordTrail orchestrator trail result').withoutLatency := by
  intro h
  obtain ⟨hsaved, hmetrics, hevents⟩ := AuditTrail.mk.inj h
  unfold recordTrail at hsaved hmetrics hevents
  dsimp only at hsaved hmetrics hevents
  rcases hrecords with hconfigured | hconfigured | hconfigured
  · rw [if_pos hconfigured, if_pos hconfigured, List.map_append, List.map_append] at hsaved
    have hrecord := List.singleton_inj.mp (List.append_cancel_left hsaved)
    have hdecision : result.decision = result'.decision := (AuditRecord.mk.inj hrecord).1
    rw [hdecision, hcodes'] at hcodes
    cases hcodes
  · rw [if_pos hconfigured, if_pos hconfigured, List.map_append, List.map_append] at hmetrics
    -- the third line is `NoEligibleModelCount`
    have hcount := congrArg (fun lines => lines[2]?.map (·.point.value))
        (List.append_cancel_left hmetrics)
    simp [resultMetrics, decisionMetrics, MetricLine.withoutLatency, MetricPoint.withoutLatency,
      noEligibleReasonCodes, hcodes, hcodes'] at hcount
  · rw [if_pos hconfigured, if_pos hconfigured] at hevents
    have hdetail := List.singleton_inj.mp (List.append_cancel_left hevents)
    have hvalues := congrArg (·.reasonCodes) hdetail
    simp [EventBridgeDecisionEventPublisher.buildDetail, hcodes, hcodes'] at hvalues

/-! ## The use cases -/

theorem decisionIn_cases {service : RouteEvaluationService} {health : String → ModelHealthStatus}
    {decisionId : String}
    {createdAt : Nat} (h : service.decisionIn request policy health decisionId createdAt =
      .ok decision) :
    (decision = routingDecision request policy { selected := none } []
      [.requiredCapabilityUnavailable] decisionId
        createdAt ∧ ¬ service.Unattemptable request policy health) ∨
    (∃ candidates selection, request.requirements.capability ∈ policy.allowedCapabilities ∧
      service.requestedModels request ≠ [] ∧
      service.candidatesIn request policy health = .ok candidates ∧
      service.routeSelection request policy candidates = .ok selection ∧
      decision = routingDecision request policy selection candidates
        (routeReasonCodes selection) decisionId createdAt) := by
  unfold decisionIn at h
  split at h
  · rename_i hunavailable
    cases h
    refine Or.inl ⟨rfl, fun ⟨hallowed, hmodels, _⟩ => ?_⟩
    rcases hunavailable with hnot | hnone
    · exact hnot hallowed
    · exact hmodels hnone
  · rename_i hoffered
    obtain ⟨hallowed, hmodels⟩ := not_or.mp hoffered
    obtain ⟨candidates, hcandidates, h⟩ := Outcome.bind_ok h
    obtain ⟨selection, hselection, h⟩ := Outcome.bind_ok h
    exact Or.inr ⟨candidates, selection, not_not.mp hallowed, hmodels, hcandidates, hselection,
      (Except.ok.inj h).symm⟩

/-- A decision that is not reached leaves nothing unattempted: a candidate or the strategy has
raised. -/
theorem attemptable_of_error {service : RouteEvaluationService}
    {health : String → ModelHealthStatus} {decisionId : String} {createdAt : Nat} {x : PyException}
    (h : service.decisionIn request policy health decisionId createdAt = .error x) :
    ¬ service.Unattemptable request policy health := by
  rintro ⟨hallowed, hmodels, candidates, selection, hcandidates, hselection, -⟩
  rw [decisionIn, if_neg (not_or.mpr ⟨not_not.mpr hallowed, hmodels⟩), hcandidates] at h
  replace h : (service.routeSelection request policy candidates >>= fun _ => _) = _ := h
  rw [hselection] at h
  cases h

/-- The chain of an explained decision is empty exactly if the request is unattemptable. -/
theorem unattemptable_iff {service : RouteEvaluationService} {health : String → ModelHealthStatus}
    {candidates : List RouteCandidate} {selection : RouteSelection}
    {reasonCodes : List RoutingReasonCode} {decisionId : String} {createdAt : Nat}
    (hallowed : request.requirements.capability ∈ policy.allowedCapabilities)
    (hmodels : service.requestedModels request ≠ [])
    (hcandidates : service.candidatesIn request policy health = .ok candidates)
    (hselection : service.routeSelection request policy candidates = .ok selection) :
    buildCandidateChain (routingDecision request policy selection candidates reasonCodes decisionId
      createdAt)
      policy.fallbackPolicy = [] ↔ service.Unattemptable request policy health := by
  have heligible : ∀ modelAlias,
      modelAlias ∈ eligibleAliases (routingDecision request policy selection candidates
      reasonCodes decisionId createdAt) ↔
        ∃ candidate ∈ candidates, candidate.eligible ∧ candidate.modelAlias = modelAlias := by
    intro modelAlias
    simp [eligibleAliases, routingDecision, and_assoc]
  rw [buildCandidateChain_eq_nil_iff]
  constructor
  · rintro ⟨hselected, hfallback⟩
    refine ⟨hallowed, hmodels, candidates, selection, hcandidates, hselection,
      Option.map_eq_none_iff.mp hselected, ?_⟩
    intro candidate hmem hel halias
    exact hfallback _ halias ((heligible _).mpr ⟨candidate, hmem, hel, rfl⟩)
  · rintro ⟨-, -, candidates', selection', hcandidates', hselection', hselected, hfallback⟩
    obtain rfl := Except.ok.inj (hcandidates.symm.trans hcandidates')
    obtain rfl := Except.ok.inj (hselection.symm.trans hselection')
    refine ⟨Option.map_eq_none_iff.mpr hselected, fun modelAlias halias hmem => ?_⟩
    obtain ⟨candidate, hcandidate, hel, rfl⟩ := (heligible _).mp hmem
    exact hfallback candidate hcandidate hel halias

theorem decision_parity (monotonic : Nat → Nat)
    (h : orchestrator.routeEvaluationService.decisionIn request policy s.health.getHealth
      world.decisionId world.now =
      .ok decision) :
    ((exec world.answer (orchestrator.invokeDecision request decision policy)
      s).2.trail.withoutLatency =
      (exec (world.withClock monotonic).answer
        (orchestrator.streamDecision request decision policy) s).2.trail.withoutLatency) ↔
      (orchestrator.Records →
        ¬ orchestrator.routeEvaluationService.Unattemptable request policy s.health.getHealth) := by
  by_cases hnil : buildCandidateChain decision policy.fallbackPolicy = []
  · rw [trail_invokeDecision_nil hnil, trail_streamDecision_nil hnil]
    rcases decisionIn_cases h with ⟨hdecision, hattemptable⟩ |
      ⟨candidates, selection, hallowed, hmodels, hcandidates, hselection, hdecision⟩
    · refine iff_of_true ?_ fun _ => hattemptable
      have haggregate : aggregateDecision decision none [] = .ok decision := by
        rw [hdecision]
        exact aggregate_unavailable _ _ _ _
      rw [finalTrail, haggregate]
      exact recordTrail_withoutLatency monotonic rfl rfl
    · have hunattemptable : orchestrator.routeEvaluationService.Unattemptable request policy
          s.health.getHealth := by
        rw [hdecision] at hnil
        exact (unattemptable_iff hallowed hmodels hcandidates hselection).mp hnil
      have hcodes : decision.reasonCodes = [.noEligibleModel] := by
        obtain ⟨-, -, candidates', selection', hcandidates', hselection', hselected, -⟩ :=
          hunattemptable
        obtain rfl := Except.ok.inj (hcandidates.symm.trans hcandidates')
        obtain rfl := Except.ok.inj (hselection.symm.trans hselection')
        rw [hdecision]
        show routeReasonCodes _ = _
        rw [routeReasonCodes, hselected]
      obtain ⟨final, hfinal⟩ : ∃ final, aggregateDecision decision none [] = .ok final := ⟨_, rfl⟩
      have hstripped := aggregate_noEligibleModel hcodes hfinal
      constructor
      · intro hsame hrecords _
        rw [finalTrail, hfinal] at hsame
        exact recordTrail_ne hrecords monotonic hcodes hstripped hsame
      · intro hcondition
        have hnothing : ¬ orchestrator.Records := fun hrecords => hcondition hrecords hunattemptable
        rw [finalTrail, hfinal]
        dsimp only
        rw [recordTrail_of_not_records hnothing, recordTrail_of_not_records hnothing]
  · rw [trail_invokeDecision hnil, trail_streamDecision hnil]
    refine iff_of_true ?_ fun _ hunattemptable => hnil ?_
    · refine finalTrail_withoutLatency monotonic ?_
      rw [foldl_withoutLatency, foldl_withoutLatency, calls_withClock monotonic]
    · rcases decisionIn_cases h with ⟨_, hattemptable⟩ |
        ⟨candidates, selection, hallowed, hmodels, hcandidates, hselection, hdecision⟩
      · exact absurd hunattemptable hattemptable
      · rw [hdecision]
        exact (unattemptable_iff hallowed hmodels hcandidates hselection).mpr hunattemptable

theorem exec_generator {α : Type} (body : Prog Ports α) (s : WorldState) :
    (exec world.answer (generator body) s).2 = (exec world.answer body s).2 := by
  rw [generator, exec_bind, exec_attempt]
  dsimp only
  split <;> rfl

/-- **Latencies aside, the two use cases leave the same trail exactly when nothing is recorded, no
policy resolves, or the request is not unattemptable.** The two runs may even read different
clocks. -/
theorem stream_parity_iff (world : World) (monotonic : Nat → Nat) (s : WorldState)
    (hstreams : orchestrator.providerStreams = true) (hkey : request.idempotencyKey = none) :
    ((exec world.answer (orchestrator.invoke request) s).2.trail.withoutLatency =
      (exec (world.withClock monotonic).answer
        (orchestrator.invokeStream request) s).2.trail.withoutLatency) ↔
      (orchestrator.Records → ∀ policy, world.policy request.applicationId = .ok policy →
        ¬ orchestrator.routeEvaluationService.Unattemptable request policy s.health.getHealth) := by
  have hinvoke : orchestrator.invoke request = orchestrator.invokeUncached request := by
    rw [invoke, hkey]
  have hstream : orchestrator.invokeStream request = orchestrator.invokeStreamUncached request := by
    rw [invokeStream, hkey, hstreams]
    rfl
  rw [hinvoke, hstream, invokeStreamUncached, exec_generator, invokeUncached]
  cases hpolicy : world.policy request.applicationId with
  | error x =>
      have hpolicy' : (world.withClock monotonic).policy request.applicationId = .error x := hpolicy
      rw [exec_bind_error (exec_evaluate_error hpolicy),
        exec_bind_error (exec_evaluate_error hpolicy')]
      exact iff_of_true rfl fun _ policy h => by cases h
  | ok policy =>
      have hpolicy' : (world.withClock monotonic).policy request.applicationId = .ok policy :=
        hpolicy
      have hresolve : world.answer (.resolve request.applicationId) s = (.ok policy, s) :=
        congrArg (·, s) hpolicy
      have hresolve' : (world.withClock monotonic).answer (.resolve request.applicationId) s =
          (.ok policy, s) :=
        congrArg (·, s) hpolicy
      have hevaluate := @exec_evaluate world orchestrator.routeEvaluationService request
          policy s hpolicy
      have hevaluate' := @exec_evaluate
          (world.withClock monotonic) orchestrator.routeEvaluationService request policy s
        hpolicy'
      have hall : (orchestrator.Records →
          ∀ p, (Except.ok policy : Except PyException RoutingPolicy) = .ok p →
          ¬ orchestrator.routeEvaluationService.Unattemptable request p s.health.getHealth) ↔
          (orchestrator.Records →
            ¬ orchestrator.routeEvaluationService.Unattemptable request policy
              s.health.getHealth) := by
        simp
      rw [hall]
      cases hdecision : orchestrator.routeEvaluationService.decisionIn request policy
        s.health.getHealth
          world.decisionId world.now with
      | error x =>
          have hraised := attemptable_of_error hdecision
          rw [hdecision] at hevaluate
          have hdecision' := hevaluate'.trans (congrArg (·, s) hdecision)
          rw [exec_bind_error hevaluate, exec_bind_error hdecision']
          exact iff_of_true rfl fun _ => hraised
      | ok decision =>
          rw [hdecision] at hevaluate
          have hdecision' := hevaluate'.trans (congrArg (·, s) hdecision)
          rw [exec_bind_ok hevaluate, exec_bind_ok hdecision', exec_perform_bind hresolve,
            exec_perform_bind hresolve']
          exact decision_parity monotonic hdecision

/-- A scenario without an eligible model: both are unavailable. -/
def unhealthy : WorldState :=
  { Scenario.fresh with health := { Scenario.fresh.health with consecutiveFailures := fun _ => 5 } }

/-- There `invoke` records `NO_ELIGIBLE_MODEL` and `invoke_stream` no code at all. -/
theorem stream_parity_fails :
    (exec Scenario.throttled.answer (Scenario.orchestrator.invoke Scenario.request)
      unhealthy).2.trail.withoutLatency ≠
      (exec Scenario.throttled.answer
        (Scenario.orchestrator.invokeStream Scenario.request)
          unhealthy).2.trail.withoutLatency := by
  decide +kernel

/-- With a healthy fallback model the trails agree, under two clocks. -/
theorem scenario_parity :
    (exec Scenario.throttled.answer (Scenario.orchestrator.invoke Scenario.request)
      {}).2.trail.withoutLatency =
      (exec (Scenario.throttled.withClock fun n => 5000000 * n).answer
        (Scenario.orchestrator.invokeStream Scenario.request) {}).2.trail.withoutLatency := by
  refine (stream_parity_iff Scenario.throttled (fun n => 5000000 * n) {} rfl rfl).mpr
    fun _ policy hpolicy => ?_
  cases hpolicy
  rintro ⟨-, -, candidates, selection, hcandidates, hselection, hselected, -⟩
  have hsome : (Scenario.orchestrator.routeEvaluationService.candidatesIn Scenario.request
      Scenario.policy
      ({} : WorldState).health.getHealth).toOption.bind (fun candidates =>
        (Scenario.orchestrator.routeEvaluationService.routeSelection Scenario.request
          Scenario.policy
          candidates).toOption.map (·.selected.isSome)) = some true := by decide +kernel
  rw [hcandidates] at hsome
  replace hsome : (Scenario.orchestrator.routeEvaluationService.routeSelection Scenario.request
    Scenario.policy
    candidates).toOption.map (·.selected.isSome) = some true := hsome
  rw [hselection] at hsome
  have hselected' := congrArg Option.isSome hselected
  cases (Option.some.inj hsome).symm.trans hselected'

end InvocationOrchestrator

end ModelRouter
