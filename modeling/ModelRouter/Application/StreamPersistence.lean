import ModelRouter.Application.Prediction
import ModelRouter.Application.StreamCommitment

/-!
# Streamed requests are recorded once

A drained stream is recorded exactly once, unless nothing can be streamed: the evaluation of the
route fails because a cost cannot be estimated (`Estimable`) or no arm can be assigned
(`Assignable`), or a candidate's stream is empty and its `StopIteration` leaves the generator
(`stream_persisted_iff`). Of a stream that its consumer has left nothing is recorded
(`left_unrecorded`).
-/

namespace ModelRouter
open Effects Prog

namespace RouteEvaluationService

/-- The cost of every model that would be considered can be estimated. -/
def Estimable (service : RouteEvaluationService) (request : InferenceRequest)
    (policy : RoutingPolicy) : Prop :=
  request.requirements.capability ∈ policy.allowedCapabilities →
  ∀ model ∈ service.requestedModels request,
    ∃ cost, service.costEstimator.estimate
      (service.tokenEstimator.estimate request.messages
        (effectiveTokenLimit request.requirements policy)) model.pricing =
        .ok cost

/-- The strategy, where it is asked, does not assign an arm by weights beyond a double. -/
def Assignable (service : RouteEvaluationService) (request : InferenceRequest)
    (policy : RoutingPolicy) : Prop :=
  request.requirements.capability ∈ policy.allowedCapabilities →
  service.requestedModels request ≠ [] →
    ¬ policy.Overweight

theorem routeSelection_ok_iff {service : RouteEvaluationService} {request : InferenceRequest}
    {policy : RoutingPolicy} {candidates : List RouteCandidate} :
    (∃ selection, service.routeSelection request policy candidates = .ok selection) ↔
      ¬ policy.Overweight := select_ok_iff

end RouteEvaluationService

namespace InvocationOrchestrator
open RouteEvaluationService

variable {orchestrator : InvocationOrchestrator} {service : RouteEvaluationService}
  {request : InferenceRequest} {decision : RoutingDecision} {policy : RoutingPolicy}
  {requirements : EffectiveRoutingRequirements} {messages : List Message} {tr : List (Event Ports)}

/-! ## Drained evaluations -/

/-- Only the estimation of its cost can keep a model from being evaluated. -/
theorem evaluateModel_ok_iff (service : RouteEvaluationService)
    (requirements : EffectiveRoutingRequirements)
    (policy : RoutingPolicy) (messages : List Message) (model : ModelDefinition)
    (status : ModelHealthStatus) :
    (∃ candidate, service.evaluateModel requirements policy messages model status = .ok candidate) ↔
      ∃ cost, service.costEstimator.estimate
        (service.tokenEstimator.estimate messages requirements.maximumOutputTokens)
        model.pricing = .ok cost := by
  unfold evaluateModel evaluateCandidate
  dsimp only
  split
  · rename_i x hx
    simp [hx]
  · rename_i cost hcost
    simp [hcost]

theorem run_healthStatus_drained {modelAlias : String} {out : Except PyException ModelHealthStatus}
    (h : Run (service.healthStatus modelAlias) tr out) (hdrained : Drained tr) :
      ∃ status, out = .ok status := by
  unfold healthStatus at h
  split at h
  · obtain ⟨status, hout, -⟩ := run_ask_drained h hdrained trivial
    exact ⟨status, hout⟩
  · exact ⟨.healthy, ((run_ret_iff _ _ _).mp h).2⟩

theorem run_buildRouteCandidates_drained {models : List ModelDefinition}
    {out : Except PyException (List RouteCandidate)}
    (h : Run (service.buildRouteCandidates requirements policy messages models) tr out)
    (hdrained : Drained tr) :
    (∃ candidates, out = .ok candidates) ↔ ∀ model ∈ models, ∃ cost, service.costEstimator.estimate
      (service.tokenEstimator.estimate messages requirements.maximumOutputTokens) model.pricing =
        .ok cost := by
  induction models generalizing tr out with
  | nil =>
      obtain ⟨-, rfl⟩ := (run_ret_iff _ _ _).mp h
      simp
  | cons model models ih =>
      rw [List.forall_mem_cons]
      rcases (run_bind_iff _ _ _ _).mp h with ⟨status, tr₁, tr₂, rfl, h₁, h₂⟩ | ⟨x, h₁, -⟩
      · rw [← evaluateModel_ok_iff service requirements policy messages model status]
        rcases (run_bind_iff _ _ _ _).mp h₂ with ⟨candidate, tr₃, tr₄, rfl, h₃, h₄⟩ | ⟨x, h₃, rfl⟩
        · obtain ⟨-, hcandidate⟩ := (run_ofExcept_iff _ _ _).mp h₃
          rw [and_iff_right ⟨candidate, hcandidate.symm⟩]
          rcases (run_bind_iff _ _ _ _).mp h₄ with ⟨candidates, tr₅, tr₆, rfl, h₅, h₆⟩ |
            ⟨x, h₅, rfl⟩
          · obtain ⟨-, rfl⟩ := (run_ret_iff _ _ _).mp h₆
            have hrest := ih h₅ hdrained.right.right.left
            exact iff_of_true ⟨_, rfl⟩ (hrest.mp ⟨candidates, rfl⟩)
          · have hrest := ih h₅ hdrained.right.right
            exact iff_of_false (by simp) fun hall => by simpa using hrest.mpr hall
        · obtain ⟨-, hraised⟩ := (run_ofExcept_iff _ _ _).mp h₃
          exact iff_of_false (by simp) fun hall => by
            obtain ⟨candidate, hok⟩ := hall.1
            rw [← hraised] at hok
            cases hok
      · obtain ⟨status, hok⟩ := run_healthStatus_drained h₁ hdrained
        cases hok

theorem run_buildDecision_drained {selection : RouteSelection} {candidates : List RouteCandidate}
    {reasonCodes : List RoutingReasonCode} {out : Except PyException RoutingDecision}
    (h : Run (buildDecision request policy selection candidates reasonCodes) tr out)
    (hdrained : Drained tr) :
    ∃ decision, out = .ok decision := by
  obtain ⟨decisionId, tr₁, rfl, hdrained₁, h₁⟩ := run_ask_bind_drained h hdrained trivial
  obtain ⟨createdAt, tr₂, rfl, -, h₂⟩ := run_ask_bind_drained h₁ hdrained₁ trivial
  exact ⟨_, ((run_ret_iff _ _ _).mp h₂).2⟩

/-- An evaluation whose ports answer returns exactly if the costs can be estimated and an arm can be
assigned. -/
theorem run_evaluate_drained {out : Except PyException RoutingDecision}
    (h : Run (service.evaluate request) tr out) (hdrained : Drained tr) :
      ∃ policy, (⟨.resolve request.applicationId, .ok policy⟩ : Event Ports) ∈ tr ∧
      ((∃ decision, out = .ok decision) ↔ service.Estimable request policy ∧
        service.Assignable request policy) := by
  obtain ⟨policy, tr₁, rfl, hdrained₁, h₁⟩ := run_ask_bind_drained h hdrained trivial
  refine ⟨policy, List.mem_cons_self, ?_⟩
  dsimp only at h₁
  split at h₁
  · rename_i hcapability
    exact iff_of_true (run_buildDecision_drained h₁ hdrained₁)
      ⟨fun hallowed => absurd hallowed hcapability, fun hallowed => absurd hallowed hcapability⟩
  · rename_i hcapability
    split at h₁
    · rename_i hmodels
      have hnone : service.requestedModels request = [] := hmodels
      refine iff_of_true (run_buildDecision_drained h₁ hdrained₁) ⟨fun _ model hmodel => ?_,
        fun _ hne => absurd hnone hne⟩
      rw [hnone] at hmodel
      exact absurd hmodel List.not_mem_nil
    · rename_i hmodels
      have hestimable : service.Estimable request policy ↔
          ∀ model ∈ service.requestedModels request, ∃ cost,
          service.costEstimator.estimate (service.tokenEstimator.estimate request.messages
            (effectiveTokenLimit request.requirements policy)) model.pricing = .ok cost :=
        forall_prop_of_true (not_not.mp hcapability)
      have hassignable : service.Assignable request policy ↔ ¬ policy.Overweight :=
        (forall_prop_of_true (not_not.mp hcapability)).trans (forall_prop_of_true hmodels)
      rw [hestimable, hassignable]
      rcases (run_bind_iff _ _ _ _).mp h₁ with ⟨candidates, tr₂, tr₃, rfl, h₂, h₃⟩ | ⟨x, h₂, rfl⟩
      · have hcandidates := run_buildRouteCandidates_drained h₂ hdrained₁.left
        refine Iff.trans ?_ (and_iff_right (hcandidates.mp ⟨candidates, rfl⟩)).symm
        rw [← @routeSelection_ok_iff service request policy candidates]
        rcases (run_ofExcept_bind_iff _ _ _ _).mp h₃ with ⟨selection, hselection, h₄⟩ |
          ⟨x, hx, -, rfl⟩
        · exact iff_of_true (run_buildDecision_drained h₄ hdrained₁.right) ⟨selection, hselection⟩
        · exact iff_of_false (by simp) fun ⟨selection,
            hselection⟩ => by cases hx.symm.trans hselection
      · have hcandidates := run_buildRouteCandidates_drained h₂ hdrained₁
        exact iff_of_false (by simp) fun hboth => by simpa using hcandidates.mpr hboth.1

/-! ## Recorded once -/

/-- The consumer has seen the stream end, or a provider error, and one result has been recorded
everywhere. -/
def PersistedOnce (tr : List (Event Ports)) (out : Except PyException InferenceResult) : Prop :=
  ((∃ result, out = .ok result) ∨
    ∃ message category, out = .error (.providerError message category)) ∧
    ∃ result, (streamLog tr).recordings = [.save { decision := result.decision
                                                   invocationAttempts := result.invocationAttempts
                                                     },
      .publishMetrics result, .publishEvent result]

/-- A decision repository, a metrics publisher and an event publisher are configured. -/
def RecordsEverywhere (orchestrator : InvocationOrchestrator) : Prop :=
  orchestrator.hasDecisionRepository = true ∧ orchestrator.hasMetricsPublisher = true ∧
    orchestrator.hasDecisionEventPublisher = true

theorem Streamed.persistedOnce {effective : EffectiveRoutingRequirements}
    {calls : List StreamAttempt}
    {result : InferenceResult} {out : Except PyException InferenceResult}
    (h : Streamed orchestrator request decision effective {} tr out calls result)
    (hrecords : orchestrator.RecordsEverywhere) :
    PersistedOnce tr out ∧ ∀ call ∈ (streamLog tr).calls, call.2 ≠ .ok emptyStream := by
  obtain ⟨replies, hshows, hlog⟩ := h.log
  obtain ⟨hrepository, hmetrics, hevents⟩ := hrecords
  refine ⟨⟨?_, result, ?_⟩, ?_⟩
  · rw [h.out]
    cases hlast : calls.getLast? with
    | none => exact Or.inl ⟨result, rfl⟩
    | some call =>
        obtain ⟨modelAlias, outcome, latency⟩ := call
        cases outcome with
        | broken message category => exact Or.inr ⟨message, category, rfl⟩
        | _ => exact Or.inl ⟨result, rfl⟩
  · rw [streamLog, hlog, recordingsOf, if_pos hrepository, if_pos hmetrics, if_pos hevents]
    rfl
  · intro reply hreply
    rw [streamLog, hlog] at hreply
    obtain ⟨call, -, -, hshown⟩ := exists_of_forall₂_mem hshows hreply
    intro hempty
    rw [hempty] at hshown
    obtain ⟨modelAlias, outcome, latency⟩ := call
    cases outcome with
    | refused message category => cases hshown
    | completed =>
        obtain ⟨stream, hstream, hchunks, -⟩ := hshown
        cases hstream
        exact hchunks rfl
    | broken message category =>
        obtain ⟨stream, hstream, hchunks, -⟩ := hshown
        cases hstream
        exact hchunks rfl

/-- A drained run records its result once if the evaluation returns and no stream is empty, and
nothing otherwise. -/
theorem run_persistedOnce_iff {out : Except PyException InferenceResult}
    (hkey : request.idempotencyKey = none)
    (hstreams : orchestrator.providerStreams = true) (hrecords : orchestrator.RecordsEverywhere)
    (hrun : Run (orchestrator.invokeStream request) tr out) (hdrained : Drained tr) :
    ∃ policy, (⟨.resolve request.applicationId, .ok policy⟩ : Event Ports) ∈ tr ∧
      (PersistedOnce tr out ↔ (orchestrator.routeEvaluationService.Estimable request policy ∧
        orchestrator.routeEvaluationService.Assignable request policy) ∧
          ∀ call ∈ (streamLog tr).calls, call.2 ≠ .ok emptyStream) := by
  have hunrecorded : ∀ {tr' : List (Event Ports)} {out' : Except PyException InferenceResult},
      (streamLog tr').recordings = [] → ¬ PersistedOnce tr' out' := by
    rintro tr' out' hnil ⟨-, result, hone⟩
    rw [hnil] at hone
    cases hone
  rcases run_invokeStream_drained hkey hstreams hrun hdrained with
    ⟨x, hevaluate, -⟩ | ⟨decision, policy', tr₁, tr₂, rfl, hevaluate, hend⟩
  · obtain ⟨policy, hresolved, hroutable⟩ := run_evaluate_drained hevaluate hdrained
    have hlog : streamLog tr = {} :=
      after_unlogged ((only_evaluate_unlogged _ request).run hevaluate)
    refine ⟨policy, hresolved, iff_of_false (hunrecorded (by rw [hlog])) fun hboth => ?_⟩
    simpa using hroutable.mpr hboth.1
  · obtain ⟨policy, hresolved, hroutable⟩ := run_evaluate_drained hevaluate hdrained.left
    have hlog : streamLog (tr₁ ++ ⟨.resolve request.applicationId, .ok policy'⟩ :: tr₂) =
        streamLog tr₂ :=
      streamLog_evaluated ((only_evaluate_unlogged _ request).run hevaluate) _ _
    refine ⟨policy, List.mem_append_left _ hresolved, ?_⟩
    rw [and_iff_right (hroutable.mp ⟨decision, rfl⟩), PersistedOnce, hlog]
    cases hend with
    | streamed calls result htried hstreamed =>
        obtain ⟨hpersisted, hcalls⟩ := hstreamed.persistedOnce hrecords
        exact iff_of_true hpersisted hcalls
    | empty hout hrecordings hcall =>
        obtain ⟨call, hmem, hempty⟩ := hcall
        exact iff_of_false (hunrecorded hrecordings) fun hnone => hnone call hmem hempty

/-! ## Left by the consumer -/

/-- The consumer has not pulled the iterator, or has left it at a chunk, or has closed it. -/
def LeftByConsumer (tr : List (Event Ports)) : Prop :=
  tr = [] ∨ (∃ tr' chunk reply, tr = tr' ++ [⟨.yieldChunk chunk, reply⟩]) ∨
    (streamLog tr).abandoned = true

theorem left_unrecorded (h : Trace (orchestrator.invokeStream request) tr)
    (hleft : LeftByConsumer tr) :
    (streamLog tr).recordings = [] := by
  rcases hleft with rfl | ⟨tr', chunk, reply, rfl⟩ | habandoned
  · rfl
  · obtain ⟨chain, -, hrecordings, -⟩ := allowed_of_trace h
    rw [streamLog, StreamLog.after_append]
    exact hrecordings
  · exact abandoned_unrecorded h habandoned

/-- **A drained stream is recorded exactly once** if the costs of its models can be estimated, an
arm can be assigned and no candidate's stream is empty, and only then; a stream that its consumer
has left is not recorded. -/
theorem stream_persisted_iff (orchestrator : InvocationOrchestrator) (request : InferenceRequest)
    (state : RoutingState)
    (policy : RoutingPolicy) (hkey : request.idempotencyKey = none)
    (hstreams : orchestrator.providerStreams = true)
    (hrecords : orchestrator.RecordsEverywhere)
    (hpolicy : state.policies request.applicationId = .ok policy) :
    (∀ tr out, Run (orchestrator.invokeStream request) tr out → Drained tr → state.Read tr →
      (PersistedOnce tr out ↔ (orchestrator.routeEvaluationService.Estimable request policy ∧
        orchestrator.routeEvaluationService.Assignable request policy) ∧
          ∀ call ∈ (streamLog tr).calls, call.2 ≠ .ok emptyStream)) ∧
    (∀ tr, Trace (orchestrator.invokeStream request) tr → LeftByConsumer tr →
      (streamLog tr).recordings = []) := by
  refine ⟨fun tr out hrun hdrained hread => ?_, fun tr => left_unrecorded⟩
  obtain ⟨policy', hresolved, hiff⟩ := run_persistedOnce_iff hkey hstreams hrecords hrun hdrained
  have hsame : policy' = policy := Except.ok.inj ((hread.policy _ _ hresolved).trans hpolicy)
  rw [← hsame]
  exact hiff

/-! ## Scenarios -/

/-- The streams of a provider whose models end theirs without a chunk. -/
def emptyStreams (_ : String) : Except PyException ChunkStream := .ok emptyStream

/-- A consumer that drains an empty stream sees a `RuntimeError`, and nothing is recorded. -/
theorem empty_stream_unpersisted :
    ∃ tr out, Run (Scenario.orchestrator.invokeStream Scenario.request) tr out ∧
    Drained tr ∧ out = .error (.runtimeError "generator raised StopIteration") ∧
    (streamLog tr).recordings = [] := by
  have hdrained : Drained (trace (Scenario.answering.streaming emptyStreams)
      (Scenario.orchestrator.invokeStream Scenario.request) Scenario.fresh) := by
    refine drained_trace (by decide +kernel) fun preq x hx => ?_
    cases hx
  refine ⟨_, _, run_exec _ _ _, hdrained, ?_⟩
  decide +kernel

theorem read_streaming {α : Type} {world : World}
    {streams : String → Except PyException ChunkStream} {p : Prog Ports α}
    {s : WorldState} {health : String → ModelHealthStatus}
    (h : (trace (world.streaming streams) p s).all (readsHealth health) = true) :
    RoutingState.Read ⟨world.policy, health⟩ (trace (world.streaming streams) p s) where
  policy _ _ hev := (mem_trace hev).choose_spec
  health _ _ hev := of_decide_eq_true (List.all_eq_true.mp h _ hev)

/-- The record that is saved. -/
def savedRecord : Port → Option AuditRecord
  | .save auditRecord => some auditRecord
  | _ => none

theorem mem_of_savedRecord {recordings : List Port} {auditRecord : AuditRecord}
    (h : auditRecord ∈ recordings.filterMap savedRecord) : .save auditRecord ∈ recordings := by
  obtain ⟨port, hport, hsaved⟩ := List.mem_filterMap.mp h
  cases port with
  | save saved =>
      rw [← Option.some.inj hsaved]
      exact hport
  | _ => cases hsaved

theorem scenario_persisted : ∃ result :
    InferenceResult, result.invocationAttempts.map (·.modelAlias) =
      ["primary", "fallback"] ∧
    (streamLog (trace (Scenario.throttled.streaming Scenario.breaking)
      (Scenario.orchestrator.invokeStream Scenario.request) Scenario.fresh)).recordings =
        [.save { decision := result.decision, invocationAttempts := result.invocationAttempts },
          .publishMetrics result,
          .publishEvent result] := by
  have hrun := run_exec (Scenario.throttled.streaming Scenario.breaking)
    (Scenario.orchestrator.invokeStream Scenario.request) Scenario.fresh
  have hread : RoutingState.Read ⟨Scenario.throttled.policy, fun _ => .healthy⟩ (trace
      (Scenario.throttled.streaming Scenario.breaking)
        (Scenario.orchestrator.invokeStream Scenario.request)
        Scenario.fresh) := read_streaming (by decide +kernel)
  have hestimable : Scenario.orchestrator.routeEvaluationService.Estimable Scenario.request
      Scenario.policy := by
    intro _ model hmodel
    have hall : (Scenario.orchestrator.routeEvaluationService.requestedModels Scenario.request).all
        (fun model =>
        (DefaultCostEstimator.estimate (DefaultTokenEstimator.estimate Scenario.request.messages
          (effectiveTokenLimit Scenario.request.requirements Scenario.policy))
            model.pricing).toOption.isSome) = true := by decide +kernel
    have hsome := List.all_eq_true.mp hall model hmodel
    cases hcost : DefaultCostEstimator.estimate
      (DefaultTokenEstimator.estimate Scenario.request.messages
      (effectiveTokenLimit Scenario.request.requirements Scenario.policy)) model.pricing with
    | error x =>
        rw [hcost] at hsome
        cases hsome
    | ok cost => exact ⟨cost, hcost⟩
  have hnonempty : ∀ call ∈ (streamLog (trace (Scenario.throttled.streaming Scenario.breaking)
      (Scenario.orchestrator.invokeStream Scenario.request) Scenario.fresh)).calls,
        call.2 ≠ .ok emptyStream := by
    intro call hcall hempty
    have hall : (streamLog (trace (Scenario.throttled.streaming Scenario.breaking)
        (Scenario.orchestrator.invokeStream Scenario.request) Scenario.fresh)).calls.all
          (fun call => decide (call.2.toOption ≠ some emptyStream)) = true := by decide +kernel
    have hne := of_decide_eq_true (List.all_eq_true.mp hall call hcall)
    rw [hempty] at hne
    exact hne rfl
  have hiff := (stream_persisted_iff Scenario.orchestrator Scenario.request
      ⟨Scenario.throttled.policy, fun _ => .healthy⟩
    Scenario.policy rfl rfl ⟨rfl, rfl, rfl⟩ rfl).1 _ _ hrun drained_breaking hread
  have hassignable : Scenario.orchestrator.routeEvaluationService.Assignable Scenario.request
      Scenario.policy := by
    rintro - - ⟨hstrategy, -⟩
    cases hstrategy
  obtain ⟨-, result, hrecordings⟩ := hiff.mpr ⟨⟨hestimable, hassignable⟩, hnonempty⟩
  have haliases : ((streamLog (trace (Scenario.throttled.streaming Scenario.breaking)
      (Scenario.orchestrator.invokeStream Scenario.request) Scenario.fresh)).recordings.filterMap
        savedRecord).map
        (fun auditRecord => auditRecord.invocationAttempts.map (·.modelAlias)) =
          [["primary", "fallback"]] := by
    decide +kernel
  rw [hrecordings] at haliases
  exact ⟨result, List.singleton_inj.mp haliases, hrecordings⟩

end InvocationOrchestrator

end ModelRouter
