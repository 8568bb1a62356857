import ModelRouter.Application.AttemptLoop
import ModelRouter.Application.World
import ModelRouter.Lib.Coupling

/-!
# Content stays out of the metadata

Two requests that differ in their messages only, and in these only as to how many characters they
have in all, make calls that look the same (`contentBlind`) as long as the providers answer in the
same way: what they save, publish and record is the same, whatever the messages and the responses
say.

* `evaluate_content` : the evaluation is one and the same program;
* `coupled_invoke` : the two use cases are coupled;
* `content_isolated` : so the metadata of their runs is the same.
-/

namespace ModelRouter
open Effects Prog

/-! ## What may differ -/

/-- The requests agree on everything but their messages, which have as many characters. -/
structure InferenceRequest.SameButContent (request request' : InferenceRequest) : Prop where
  applicationId : request'.applicationId = request.applicationId
  requirements : request'.requirements = request.requirements
  conversationId : request'.conversationId = request.conversationId
  idempotencyKey : request'.idempotencyKey = request.idempotencyKey
  metadata : request'.metadata = request.metadata
  totalChars : totalChars request'.messages = totalChars request.messages

/-- The provider requests agree on everything but their messages. -/
def ProviderRequest.SameButContent (request request' : ProviderRequest) : Prop :=
  { request' with messages := request.messages, messages_ne := request.messages_ne } = request

theorem ProviderRequest.SameButContent.modelAlias {request request' : ProviderRequest}
    (h : request.SameButContent request') : request'.modelAlias = request.modelAlias := by
  unfold SameButContent at h
  rw [← h]

/-- The provider succeeds both times, with any responses, or fails in the same category. -/
inductive SameKind : Except PyException ProviderResponse →
    Except PyException ProviderResponse → Prop
  | succeeded (response response' : ProviderResponse) : SameKind (.ok response) (.ok response')
  | failed (message message' : String) (category : ProviderErrorCategory) :
      SameKind (.error (.providerError message category))
        (.error (.providerError message' category))
  | raised (x : PyException) (h : ∀ message category, x ≠ .providerError message category) :
      SameKind (.error x) (.error x)

/-- The ports that hand over neither a message nor a response. -/
def ContentFreePort : Port → Prop
  | .invoke _ | .invokeStream _ | .publishMetrics _ | .publishEvent _ => False
  | _ => True

/-- What two calls show of their requests and results is the same. -/
inductive SameCall : Port → Port → Prop
  | same {port : Port} (h : ContentFreePort port) : SameCall port port
  | invoke {request request' : ProviderRequest} (h : request.SameButContent request') :
      SameCall (.invoke request) (.invoke request')
  | publishMetrics {result result' : InferenceResult} (h : result'.decision = result.decision)
      (h' : result'.invocationAttempts = result.invocationAttempts) :
      SameCall (.publishMetrics result) (.publishMetrics result')
  | publishEvent {result result' : InferenceResult} (h : result'.decision = result.decision)
      (h' : result'.invocationAttempts = result.invocationAttempts) :
      SameCall (.publishEvent result) (.publishEvent result')

/-- The calls show the same, and are replied the same, up to the content of a response. -/
inductive LooksAlike : Event Ports → Event Ports → Prop
  | same (event : Event Ports) : LooksAlike event event
  | invoke {request request' : ProviderRequest} {reply reply' : Except PyException ProviderResponse}
      (h : SameKind reply reply') : LooksAlike ⟨.invoke request, reply⟩ ⟨.invoke request', reply'⟩
  | publishMetrics {result result' : InferenceResult} (h : result'.decision = result.decision)
      (h' : result'.invocationAttempts = result.invocationAttempts)
      (reply : Except PyException Unit) :
      LooksAlike ⟨.publishMetrics result, reply⟩ ⟨.publishMetrics result', reply⟩
  | publishEvent {result result' : InferenceResult} (h : result'.decision = result.decision)
      (h' : result'.invocationAttempts = result.invocationAttempts)
      (reply : Except PyException Unit) :
      LooksAlike ⟨.publishEvent result, reply⟩ ⟨.publishEvent result', reply⟩

def contentBlind : Coupling Ports where
  calls := SameCall
  alike := LooksAlike

theorem SameKind.refl (reply : Except PyException ProviderResponse) : SameKind reply reply := by
  cases reply with
  | ok response => exact .succeeded response response
  | error x =>
      cases x with
      | providerError message category => exact .failed message message category
      | _ => exact .raised _ fun _ _ h => by cases h

theorem sameKind_of_alike {request request' : ProviderRequest}
    {reply reply' : Except PyException ProviderResponse}
    (h : LooksAlike ⟨.invoke request, reply⟩ ⟨.invoke request', reply'⟩) :
      SameKind reply reply' := by
  cases h with
  | same => exact .refl reply
  | invoke h => exact h

theorem plain (port : Port) (h : ContentFreePort port) : contentBlind.Plain port := by
  refine ⟨.same h, fun reply reply' halike => ?_⟩
  cases halike with
  | same => rfl
  | invoke | publishMetrics | publishEvent => exact h.elim

/-! ## The evaluation -/

theorem estimate_totalChars {messages messages' : List Message}
    (h : totalChars messages' = totalChars messages) (maximumOutputTokens : Nat) :
    DefaultTokenEstimator.estimate messages' maximumOutputTokens =
      DefaultTokenEstimator.estimate messages maximumOutputTokens := by
  show Usage.mk (max 1 ((totalChars messages' + 3) / 4)) _ =
      Usage.mk (max 1 ((totalChars messages + 3) / 4)) _
  rw [h]

namespace RouteEvaluationService

variable {service : RouteEvaluationService} {request request' : InferenceRequest}

theorem buildRouteCandidates_content (hestimator : service.tokenEstimator = DefaultTokenEstimator)
    {messages messages' : List Message} (h : totalChars messages' = totalChars messages)
    (requirements : EffectiveRoutingRequirements) (policy : RoutingPolicy)
    (models : List ModelDefinition) :
    service.buildRouteCandidates requirements policy messages' models =
      service.buildRouteCandidates requirements policy messages models := by
  have hmodel : ∀ model healthStatus,
      service.evaluateModel requirements policy messages' model healthStatus =
      service.evaluateModel requirements policy messages model healthStatus := by
    intro model healthStatus
    unfold evaluateModel evaluateCandidate
    rw [hestimator, estimate_totalChars h]
  induction models with
  | nil => rfl
  | cons model models ih =>
      unfold buildRouteCandidates
      rw [ih]
      simp only [hmodel]

/-- **The evaluation does not depend on the content.** -/
theorem evaluate_content (hestimator : service.tokenEstimator = DefaultTokenEstimator)
    (h : request.SameButContent request') :
      service.evaluate request' = service.evaluate request := by
  have hdecision : @buildDecision request' = @buildDecision request := by
    funext policy selection candidates reasonCodes
    unfold buildDecision routingDecision
    rw [h.applicationId, h.requirements]
  have hselection : service.routeSelection request' = service.routeSelection request := by
    funext policy candidates
    unfold routeSelection
    rw [h.applicationId, h.requirements, h.conversationId]
  unfold evaluate
  rw [h.applicationId, h.requirements, hdecision, hselection]
  simp only [buildRouteCandidates_content hestimator h.totalChars]

end RouteEvaluationService

/-! ## The invocation -/

namespace InvocationOrchestrator

variable {orchestrator : InvocationOrchestrator} {request request' : InferenceRequest}

theorem coupled_ask (port : Port) (h : ContentFreePort port) :
    Coupled contentBlind (· = ·) (ask port) (ask port) :=
  .same (Only.perform h) plain

/-- The loops have done the same, up to the content of the response. -/
structure Attempts.SameButContent (st st' : Attempts) : Prop where
  attempts : st'.attempts = st.attempts
  extraReasonCodes : st'.extraReasonCodes = st.extraReasonCodes
  succeededAlias : st'.succeededAlias = st.succeededAlias

theorem coupled_attemptChain (decision : RoutingDecision) (effective : EffectiveRoutingRequirements)
    (chain : List String) {st st' : Attempts} (hst : st.SameButContent st') :
    Coupled contentBlind Attempts.SameButContent
      (orchestrator.attemptChain request decision effective chain st)
      (orchestrator.attemptChain request' decision effective chain st') := by
  have hhealth : ∀ modelAlias status,
      Coupled contentBlind (· = ·) (orchestrator.recordHealthOutcome modelAlias status)
      (orchestrator.recordHealthOutcome modelAlias status) := by
    intro modelAlias status
    refine .same ((orchestrator.only_recordHealthOutcome modelAlias status).mono fun port h =>
      ?_) plain
    cases port <;> first | exact trivial | exact h.elim
  induction chain generalizing st st' with
  | nil => exact .ret hst
  | cons candidateAlias chain ih =>
      refine (coupled_ask .monotonic trivial).bind ?_
      rintro startedAt _ rfl
      refine .call (.invoke rfl) fun reply reply' halike => ?_
      cases sameKind_of_alike halike with
      | succeeded response response' =>
          refine (coupled_ask .monotonic trivial).bind ?_
          rintro finishedAt _ rfl
          refine (hhealth candidateAlias .succeeded).bind fun _ _ _ => .ret ⟨?_, ?_, rfl⟩
          · rw [hst.attempts]
          · rw [hst.extraReasonCodes]
      | failed message message' category =>
          refine (coupled_ask .monotonic trivial).bind ?_
          rintro finishedAt _ rfl
          have hfailed : (st.failed candidateAlias category
              (latencyMs startedAt finishedAt)).SameButContent
              (st'.failed candidateAlias category (latencyMs startedAt finishedAt)) := by
            unfold Attempts.failed
            refine ⟨?_, ?_, hst.succeededAlias⟩
            · rw [hst.attempts]
            · rw [hst.extraReasonCodes]
          refine (hhealth candidateAlias (statusForProviderErrorCategory category)).bind
            fun _ _ _ => ?_
          split
          · exact .ret hfailed
          · exact ih hfailed
      | raised x hother =>
          cases x with
          | providerError message category => exact absurd rfl (hother message category)
          | _ => exact .raise _

theorem coupled_record {result result' : InferenceResult}
    (hdecision : result'.decision = result.decision)
    (hattempts : result'.invocationAttempts = result.invocationAttempts) :
    Coupled contentBlind (fun _ _ => True) (orchestrator.record result)
      (orchestrator.record result') := by
  have hpersist : Coupled contentBlind (· = ·) (orchestrator.persist result)
      (orchestrator.persist result') := by
    unfold persist
    rw [hdecision, hattempts]
    split
    · exact coupled_ask (.save _) trivial
    · exact .ret rfl
  have hmetrics : Coupled contentBlind (· = ·) (orchestrator.publishMetrics result)
      (orchestrator.publishMetrics result') := by
    unfold publishMetrics
    split
    · refine .call (.publishMetrics hdecision hattempts) fun reply reply' halike => ?_
      cases halike <;> exact .same (Only.ofExcept reply) plain
    · exact .ret rfl
  have hevent : Coupled contentBlind (· = ·) (orchestrator.publishDecisionEvent result)
      (orchestrator.publishDecisionEvent result') := by
    unfold publishDecisionEvent
    split
    · refine .call (.publishEvent hdecision hattempts) fun reply reply' halike => ?_
      cases halike <;> exact .same (Only.ofExcept reply) plain
    · exact .ret rfl
  exact hpersist.bind fun _ _ _ => hmetrics.bind fun _ _ _ => hevent.bind fun _ _ _ => .ret trivial

theorem coupled_invokeDecision (h : request.SameButContent request') (decision : RoutingDecision)
    (policy : RoutingPolicy) :
    Coupled contentBlind (fun _ _ => True) (orchestrator.invokeDecision request decision policy)
      (orchestrator.invokeDecision request' decision policy) := by
  unfold invokeDecision
  dsimp only
  rw [h.requirements]
  split
  · exact coupled_record rfl rfl
  · refine (coupled_attemptChain decision _ _ ⟨rfl, rfl, rfl⟩).bind fun st st' hst => ?_
    rw [hst.succeededAlias, hst.extraReasonCodes]
    refine (Coupled.same (Only.ofExcept _) plain).bind ?_
    rintro finalDecision _ rfl
    exact coupled_record rfl hst.attempts

/-- **The two use cases are coupled.** -/
theorem coupled_invoke
    (hestimator : orchestrator.routeEvaluationService.tokenEstimator = DefaultTokenEstimator)
    (h : request.SameButContent request') (hkey : request.idempotencyKey = none) :
    Coupled contentBlind (fun _ _ => True) (orchestrator.invoke request)
      (orchestrator.invoke request') := by
  have hevaluate : Only ContentFreePort (orchestrator.routeEvaluationService.evaluate request) := by
    refine (orchestrator.routeEvaluationService.only_evaluate request).mono fun port h => ?_
    cases port <;> first | exact trivial | exact h.elim
  unfold invoke
  rw [h.idempotencyKey, hkey]
  show Coupled contentBlind _ (orchestrator.invokeUncached request)
      (orchestrator.invokeUncached request')
  unfold invokeUncached
  rw [RouteEvaluationService.evaluate_content hestimator h, h.applicationId]
  refine (Coupled.same hevaluate plain).bind ?_
  rintro decision _ rfl
  refine (coupled_ask (.resolve request.applicationId) trivial).bind ?_
  rintro policy _ rfl
  exact coupled_invokeDecision h decision policy

end InvocationOrchestrator

/-! ## The metadata -/

def savedRecords : Event Ports → List AuditRecord
  | ⟨.save auditRecord, .ok _⟩ => [auditRecord]
  | _ => []

def metricPoints : Event Ports → List MetricPoint
  | ⟨.publishMetrics result, _⟩ => resultMetrics result
  | _ => []

def eventDetails : Event Ports → List DecisionEventDetail
  | ⟨.publishEvent result, _⟩ => [EventBridgeDecisionEventPublisher.buildDetail result]
  | _ => []

/-- The metric lines of a run, the `n`-th at the `n`-th reading of the publisher's clock. -/
def metricLines (publisher : EmfMetricsPublisher) (clock : Nat → Nat) (tr : List (Event Ports)) :
    Except PyException (List MetricLine) :=
  (tr.flatMap metricPoints).zipIdx.mapM fun point => publisher.putMetric (clock point.2) point.1

/-- The health repository after a run. -/
def healthAfter (repository : InMemoryModelHealthRepository) (tr : List (Event Ports)) :
    InMemoryModelHealthRepository :=
  (InvocationOrchestrator.recordedOutcomes tr).foldl (fun repository outcome =>
    repository.recordOutcome outcome.1 outcome.2) repository

/-- Two runs leave the same metadata. -/
structure SameMetadata (tr tr' : List (Event Ports)) : Prop where
  saved : tr'.flatMap savedRecords = tr.flatMap savedRecords
  metrics : ∀ publisher clock, metricLines publisher clock tr' = metricLines publisher clock tr
  events : tr'.flatMap eventDetails = tr.flatMap eventDetails
  health : ∀ repository, healthAfter repository tr' = healthAfter repository tr

section Metadata

variable {tr tr' : List (Event Ports)} {result result' : InferenceResult}

theorem resultMetrics_content (h : result'.decision = result.decision)
    (h' : result'.invocationAttempts = result.invocationAttempts) :
      resultMetrics result' = resultMetrics result := by
  unfold resultMetrics
  rw [h, h']

theorem buildDetail_content (h : result'.decision = result.decision) :
    EventBridgeDecisionEventPublisher.buildDetail result' =
      EventBridgeDecisionEventPublisher.buildDetail result := by
  unfold EventBridgeDecisionEventPublisher.buildDetail
  rw [h]

theorem flatMap_alike {β : Type} {f : Event Ports → List β}
    (hf : ∀ event event', LooksAlike event event' → f event' = f event)
    (h : List.Forall₂ LooksAlike tr tr') : tr'.flatMap f = tr.flatMap f := by
  induction h with
  | nil => rfl
  | cons halike _ ih => rw [List.flatMap_cons, List.flatMap_cons, ih, hf _ _ halike]

theorem recordedOutcomes_alike (h : List.Forall₂ LooksAlike tr tr') :
    InvocationOrchestrator.recordedOutcomes tr' = InvocationOrchestrator.recordedOutcomes tr := by
  induction h with
  | nil => rfl
  | @cons event _ _ _ halike _ ih =>
      cases halike with
      | same =>
          obtain ⟨port, reply⟩ := event
          cases port <;> simp [InvocationOrchestrator.recordedOutcomes, ih]
      | invoke | publishMetrics | publishEvent => exact ih

/-- **Runs that look the same leave the same metadata.** -/
theorem sameMetadata (h : List.Forall₂ LooksAlike tr tr') : SameMetadata tr tr' where
  saved := by
    refine flatMap_alike (fun event event' halike => ?_) h
    cases halike <;> rfl
  metrics publisher clock := by
    have hpoints : tr'.flatMap metricPoints = tr.flatMap metricPoints := by
      refine flatMap_alike (fun event event' halike => ?_) h
      cases halike with
      | publishMetrics h h' => exact resultMetrics_content h h'
      | _ => rfl
    unfold metricLines
    rw [hpoints]
  events := by
    refine flatMap_alike (fun event event' halike => ?_) h
    cases halike with
    | publishEvent h => exact congrArg (fun detail => [detail]) (buildDetail_content h)
    | _ => rfl
  health repository := by
    unfold healthAfter
    rw [recordedOutcomes_alike h]

end Metadata

/-! ## Worlds -/

/-- The worlds agree on everything but the content of their models' answers. -/
structure World.SameButContent (world world' : World) : Prop where
  policy : world'.policy = world.policy
  outcome : ∀ modelAlias, SameKind (world.outcome modelAlias).response
    (world'.outcome modelAlias).response
  decisionId : world'.decisionId = world.decisionId
  now : world'.now = world.now
  monotonic : world'.monotonic = world.monotonic
  metricsPublisher : world'.metricsPublisher = world.metricsPublisher

/-- They answer alike, and their state does not depend on the content. -/
theorem World.SameButContent.answers {world world' : World} (h : world.SameButContent world')
    (port port' : Port) (s t : WorldState) (hcalls : SameCall port port') (hst : s = t) :
    LooksAlike ⟨port, (world.answer port s).1⟩ ⟨port', (world'.answer port' t).1⟩ ∧
      (world.answer port s).2 = (world'.answer port' t).2 := by
  obtain ⟨_, outcome, _, _, _, _⟩ := world
  obtain ⟨policy, outcome', decisionId, now, monotonic, publisher⟩ := world'
  obtain ⟨rfl, houtcome, rfl, rfl, rfl, rfl⟩ := h
  subst hst
  cases hcalls with
  | same hplain =>
      cases port with
      | invoke | invokeStream | publishMetrics | publishEvent => exact hplain.elim
      | _ => exact ⟨.same _, rfl⟩
  | @invoke request request' hrequest =>
      refine ⟨.invoke ?_, rfl⟩
      show SameKind (outcome request.modelAlias).response (outcome' request'.modelAlias).response
      rw [hrequest.modelAlias]
      exact houtcome request.modelAlias
  | @publishMetrics result result' hdecision hattempts =>
      have hpublish : publisher.publish (now / 1000) result' =
          publisher.publish (now / 1000) result := by
        unfold EmfMetricsPublisher.publish
        rw [resultMetrics_content hdecision hattempts]
      unfold World.answer
      dsimp only
      rw [hpublish]
      cases publisher.publish (now / 1000) result <;>
        exact ⟨.publishMetrics hdecision hattempts _, rfl⟩
  | @publishEvent result result' hdecision hattempts =>
      refine ⟨.publishEvent hdecision hattempts _, ?_⟩
      show { s with trail.events := _ } = { s with trail.events := _ }
      rw [buildDetail_content hdecision]

/-- **What a request and the responses say does not reach the metadata**: neither of any two runs
that are answered alike, nor in two worlds that differ in the content of their models' answers. -/
theorem content_isolated (orchestrator : InvocationOrchestrator)
    (hestimator : orchestrator.routeEvaluationService.tokenEstimator = DefaultTokenEstimator)
    (request request' : InferenceRequest) (hsame : request.SameButContent request')
    (hkey : request.idempotencyKey = none) :
    (∀ tr tr' out out', Run (orchestrator.invoke request) tr out →
      Run (orchestrator.invoke request') tr' out' →
      contentBlind.Answered tr tr' → SameMetadata tr tr') ∧
    ∀ (world world' : World) (s : WorldState), world.SameButContent world' →
      (exec world'.answer (orchestrator.invoke request') s).2 =
        (exec world.answer (orchestrator.invoke request) s).2 := by
  have hcoupled := InvocationOrchestrator.coupled_invoke hestimator hsame hkey
  constructor
  · intro tr tr' out out' hrun hrun' hanswered
    exact sameMetadata (hcoupled.run hrun hrun' hanswered)
  · intro world world' s hworlds
    exact (hcoupled.exec hworlds.answers rfl).2.symm

namespace Scenario

/-- As many characters, in two messages. -/
def rephrased : InferenceRequest := { request with
  messages := [⟨.system, "né"⟩, ⟨.user, "ver"⟩]
  messages_ne := by decide }

/-- The models answer otherwise, and the primary is throttled with another message. -/
def rephrasing : World := { throttled with
  outcome := fun modelAlias =>
    if modelAlias = "primary" then .failure "slow down" .throttled
    else .success ⟨modelAlias, .bedrock, ⟨.assistant, "no"⟩, .maxTokens, ⟨7, 5⟩⟩
      { deltaText := "no", isFinal := true } [] }

theorem request_rephrased : request.SameButContent rephrased :=
  ⟨rfl, rfl, rfl, rfl, rfl, by decide +kernel⟩

theorem throttled_rephrasing : throttled.SameButContent rephrasing where
  policy := rfl
  outcome modelAlias := by
    unfold rephrasing throttled
    dsimp only
    split
    · exact .failed _ _ _
    · exact .succeeded _ _
  decisionId := rfl
  now := rfl
  monotonic := rfl
  metricsPublisher := rfl

/-- The two runs answer differently, and leave the same metadata, which is not empty. -/
theorem rephrased_isolated :
    SameMetadata (trace throttled.answer (Scenario.orchestrator.invoke request) fresh)
      (trace rephrasing.answer (Scenario.orchestrator.invoke rephrased) fresh) ∧
    (exec rephrasing.answer (Scenario.orchestrator.invoke rephrased) fresh).2 =
      (exec throttled.answer (Scenario.orchestrator.invoke request) fresh).2 ∧
    (exec throttled.answer (Scenario.orchestrator.invoke request) fresh).2.trail.saved ≠ [] := by
  have hisolated := content_isolated Scenario.orchestrator rfl request rephrased
      request_rephrased rfl
  have hcoupled : Coupled contentBlind (fun _ _ => True) (Scenario.orchestrator.invoke request)
      (Scenario.orchestrator.invoke rephrased) :=
        InvocationOrchestrator.coupled_invoke rfl request_rephrased rfl
  have halike := (hcoupled.exec throttled_rephrasing.answers (Eq.refl fresh)).1
  refine ⟨?_, hisolated.2 throttled rephrasing fresh throttled_rephrasing, by decide +kernel⟩
  exact hisolated.1 _ _ _ _ (run_exec ..) (run_exec ..) (Coupling.answered_of_alike halike)

end Scenario

end ModelRouter
