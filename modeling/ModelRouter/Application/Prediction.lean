import ModelRouter.Application.Coherence

/-!
# What an evaluation predicts of an invocation

Requests read a `RoutingState`: the policies and the health of the models. Two evaluations of one
request from one state consider the same candidates and select the same model (`evaluated_agree`),
so the first model an invocation calls is known from an evaluation (`predictedAlias`): the selected
one, or else the first eligible fallback.

* `invoke_predicted` : when every provider call succeeds, that model is the only one called and the
  one selected;
* `noEligibleModel_iff` : `NO_ELIGIBLE_MODEL` says that the strategy would select no eligible
  candidate, and of a result also that no eligible candidate is a fallback.
-/

namespace ModelRouter
open Effects Prog RouteEvaluationService

/-- What a request reads: a policy for each application, or an error, and the health of each
model. -/
structure RoutingState where
  policies : String → Except PyException RoutingPolicy
  health : String → ModelHealthStatus

/-- The replies `tr` were read from the state. -/
structure RoutingState.Read (state : RoutingState) (tr : List (Event Ports)) : Prop where
  policy : ∀ applicationId reply, (⟨.resolve applicationId, reply⟩ : Event Ports) ∈ tr →
    reply = state.policies applicationId
  health : ∀ modelAlias reply, (⟨.getHealth modelAlias, reply⟩ : Event Ports) ∈ tr →
    reply = .ok (state.health modelAlias)

theorem RoutingState.Read.mono {state : RoutingState} {tr tr' : List (Event Ports)}
    (h : state.Read tr) (htr : ∀ ev ∈ tr', ev ∈ tr) : state.Read tr' where
  policy applicationId reply hev := h.policy applicationId reply (htr _ hev)
  health modelAlias reply hev := h.health modelAlias reply (htr _ hev)

/-! ## Evaluations from one state -/

namespace RouteEvaluationService

variable {service : RouteEvaluationService} {request : InferenceRequest} {policy : RoutingPolicy}
  {state : RoutingState} {tr tr' : List (Event Ports)} {decision decision' : RoutingDecision}

/-- The status a model is evaluated at. -/
def statusIn (service : RouteEvaluationService) (state : RoutingState) (modelAlias : String) :
    ModelHealthStatus :=
  if service.tracksHealth then state.health modelAlias else .healthy

theorem reported_eq {modelAlias : String} {status : ModelHealthStatus} (hread : state.Read tr)
    (h : service.Reported tr modelAlias status) : status = service.statusIn state modelAlias := by
  unfold Reported at h
  unfold statusIn
  split
  · rename_i htracks
    rw [if_pos htracks] at h
    exact Except.ok.inj (hread.health _ _ h)
  · rename_i htracks
    rw [if_neg htracks] at h
    exact h

theorem candidates_evaluated {candidates : List RouteCandidate} (hread : state.Read tr)
    (h : service.Candidates request policy tr candidates) :
    List.Forall₂ (fun model candidate =>
      service.evaluateModel (resolveEffectiveRequirements request.requirements policy) policy
        request.messages model
        (service.statusIn state model.modelAlias) =
          .ok candidate) (service.requestedModels request) candidates := by
  refine h.imp ?_
  rintro model candidate ⟨status, hreported, hevaluated⟩
  rw [← reported_eq hread hreported]
  exact hevaluated

theorem candidates_unique {candidates candidates' : List RouteCandidate} (hread : state.Read tr)
    (hread' : state.Read tr') (h : service.Candidates request policy tr candidates)
    (h' : service.Candidates request policy tr' candidates') : candidates' = candidates := by
  refine List.right_unique_forall₂' ?_ (candidates_evaluated hread' h')
    (candidates_evaluated hread h)
  intro model candidate candidate' hcandidate hcandidate'
  exact Except.ok.inj (hcandidate.symm.trans hcandidate')

theorem routeSelection_nil {selection : RouteSelection}
    (h : service.routeSelection request policy [] = .ok selection) :
    selection.selected = none := (select_eq_none_iff h).mpr (by simp)

/-- **Evaluations of one request from one state select the same model among the same
candidates.** -/
theorem evaluated_agree (hread : state.Read tr) (hread' : state.Read tr')
    (h : service.Evaluated request policy tr decision)
    (h' : service.Evaluated request policy tr' decision') :
    decision'.selectedModelAlias = decision.selectedModelAlias ∧
      decision'.consideredCandidates = decision.consideredCandidates := by
  have hmixed : ∀ {tr : List (Event Ports)} {candidates : List RouteCandidate},
      request.requirements.capability ∈ policy.allowedCapabilities →
      service.Candidates request policy tr candidates →
      (request.requirements.capability ∉ policy.allowedCapabilities ∨
        service.requestedModels request = []) →
      candidates = [] := by
    rintro tr candidates hallowed hcandidates (hnot | hmodels)
    · exact absurd hallowed hnot
    · unfold Candidates at hcandidates
      rw [hmodels] at hcandidates
      exact List.forall₂_nil_left_iff.mp hcandidates
  cases h with
  | unavailable decisionId createdAt hunavailable =>
      cases h' with
      | unavailable => exact ⟨rfl, rfl⟩
      | considered decisionId' createdAt' candidates' selection hallowed hcandidates' hselection =>
          obtain rfl := hmixed hallowed hcandidates' hunavailable
          exact ⟨Option.map_eq_none_iff.mpr (routeSelection_nil hselection), rfl⟩
  | considered decisionId createdAt candidates selection hallowed hcandidates hselection =>
      cases h' with
      | unavailable decisionId' createdAt' hunavailable =>
          obtain rfl := hmixed hallowed hcandidates hunavailable
          exact ⟨(Option.map_eq_none_iff.mpr (routeSelection_nil hselection)).symm, rfl⟩
      | considered decisionId' createdAt' candidates' selection' _ hcandidates' hselection' =>
          obtain rfl := candidates_unique hread hread' hcandidates hcandidates'
          obtain rfl := Except.ok.inj (hselection.symm.trans hselection')
          exact ⟨rfl, rfl⟩

end RouteEvaluationService

namespace InvocationOrchestrator

variable {orchestrator : InvocationOrchestrator} {service : RouteEvaluationService}
  {request : InferenceRequest}
  {decision decision' : RoutingDecision} {policy : RoutingPolicy} {state : RoutingState}
  {tr tr₀ : List (Event Ports)}

/-! ## The first model of the chain -/

/-- The model an invocation starts with: the selected one, or else the first eligible fallback. -/
def predictedAlias (decision : RoutingDecision) (fallbackPolicy : FallbackPolicy) : Option String :=
  decision.selectedModelAlias.or
    (fallbackPolicy.fallbackModelAliases.find? (· ∈ eligibleAliases decision))

theorem head?_eraseDups {α : Type} [DecidableEq α] (l : List α) : l.eraseDups.head? = l.head? := by
  cases l with
  | nil => rfl
  | cons a l => rw [List.eraseDups_cons, List.head?_cons, List.head?_cons]

theorem buildCandidateChain_head? (decision : RoutingDecision) (fallbackPolicy : FallbackPolicy) :
    (buildCandidateChain decision fallbackPolicy).head? =
      predictedAlias decision fallbackPolicy := by
  have hpos : fallbackPolicy.maximumAttempts ≠ 0 := by
    have := fallbackPolicy.maximumAttempts_pos
    omega
  rw [buildCandidateChain_eq, List.head?_take, if_neg hpos, fallbackOrder, head?_eraseDups,
    List.head?_append,
    List.head?_filter, predictedAlias]
  cases decision.selectedModelAlias <;> rfl

theorem tried_of_succeeding {chain : List String} {calls : List ProviderCall}
    (h : Tried chain calls) (hsucceed : ∀ call ∈ calls, call.response.isSome) :
    calls.map (·.modelAlias) = chain.head?.toList ∧
      (succeededCall calls).map (·.1.modelAlias) = chain.head? := by
  cases h with
  | exhausted => exact ⟨rfl, rfl⟩
  | @final call chain _ =>
      obtain ⟨response, hresponse⟩ := Option.isSome_iff_exists.mp (hsucceed call List.mem_cons_self)
      simp [succeededCall, hresponse]
  | @next call chain calls hnot _ =>
      have hsome := hsucceed call List.mem_cons_self
      rw [response_eq_none hnot] at hsome
      cases hsome

theorem concluded_selected {chain : List String} {calls : List ProviderCall}
    {result : InferenceResult} (h : Concluded decision chain calls result) (hchain : chain ≠ []) :
    result.decision.selectedModelAlias = (succeededCall calls).map (·.1.modelAlias) :=
  (aggregated_of_ok (h.attempted hchain)).selected

theorem providerCalls_reservation {tr : List (Event Ports)}
    (h : ∀ ev ∈ tr, ReservationPort ev.call) :
    providerCalls tr = [] := by
  refine providerCalls_eq_nil fun ev hev preq hcall => ?_
  have hport := h ev hev
  rw [hcall] at hport
  exact hport

theorem mem_providerCalls {preq : ProviderRequest} {reply : Except PyException ProviderResponse}
    {tr : List (Event Ports)} (h : (preq, reply) ∈ providerCalls tr) :
    (⟨.invoke preq, reply⟩ : Event Ports) ∈ tr := by
  induction tr with
  | nil => cases h
  | cons ev tr ih =>
      obtain ⟨port, answer⟩ := ev
      cases port with
      | invoke preq' =>
          rcases List.mem_cons.mp h with hpair | htail
          · cases hpair
            exact List.mem_cons_self
          · exact List.mem_cons_of_mem _ (ih htail)
      | _ => exact List.mem_cons_of_mem _ (ih h)

/-! ## Prediction -/

/-- A decision evaluated in a state, with the invocation that followed it. -/
structure Invoked (orchestrator : InvocationOrchestrator) (request : InferenceRequest)
    (state : RoutingState)
    (tr : List (Event Ports)) (decision : RoutingDecision) (policy : RoutingPolicy)
    (calls : List ProviderCall) (result : InferenceResult) : Prop where
  resolved : state.policies request.applicationId = .ok policy
  evaluated : ∃ tr₁, state.Read tr₁ ∧
    orchestrator.routeEvaluationService.Evaluated request policy tr₁ decision
  tried : Tried (buildCandidateChain decision policy.fallbackPolicy) calls
  concluded : Concluded decision (buildCandidateChain decision policy.fallbackPolicy) calls result
  requests : providerCalls tr = calls.map fun call =>
    (providerRequest request (resolveEffectiveRequirements request.requirements policy)
      call.modelAlias,
      call.outcome.reply)

theorem run_invoke_read {result : InferenceResult}
    (hrun : Run (orchestrator.invoke request) tr (.ok result))
    (hread : state.Read tr) (hnew : ¬ Replayed tr) :
    ∃ decision policy calls,
      Invoked orchestrator request state tr decision policy calls result := by
  obtain ⟨pre, tr', post, rfl, hrun', hpre, hpost⟩ := run_invoke_parts hrun hnew
  obtain ⟨decision, tr₁, tr₂, rfl, hevaluate, hrest⟩ := (run_bind_ok_iff _ _ _ _).mp hrun'
  obtain ⟨policy, tr₃, rfl, hdecision⟩ := (run_perform_bind_ok_iff _ _ _ _).mp hrest
  obtain ⟨policy₁, hresolved, hevaluated⟩ := run_evaluate hevaluate
  -- both resolutions answer the policy of the state
  have hpolicy : Except.ok policy = state.policies request.applicationId :=
    hread.policy _ _ (by simp)
  have hpolicy₁ := hread.policy request.applicationId (.ok policy₁) (by simp [hresolved])
  have hsame : policy₁ = policy := Except.ok.inj (hpolicy₁.trans hpolicy.symm)
  subst hsame
  obtain ⟨calls, htried, hconcluded, hcalls, -⟩ := run_invokeDecision hdecision
  have hnone : providerCalls tr₁ = [] := by
    refine providerCalls_eq_nil fun ev hev preq hcall => ?_
    have hport := (only_evaluate _ _).run hevaluate ev hev
    rw [hcall] at hport
    exact hport
  refine ⟨decision, policy₁, calls, ?_⟩
  exact {
    resolved := hpolicy.symm
    evaluated := ⟨tr₁, hread.mono fun ev hev => by simp [hev], hevaluated⟩
    tried := htried
    concluded := hconcluded
    requests := by
      rw [← hcalls]
      simp [providerCalls_reservation hpre, providerCalls_reservation hpost, hnone, providerCalls] }

theorem Invoked.mem {calls : List ProviderCall} {result : InferenceResult}
    (h : Invoked orchestrator request state tr decision policy calls result) {call : ProviderCall}
    (hcall : call ∈ calls) :
    (⟨.invoke (providerRequest request (resolveEffectiveRequirements request.requirements policy)
      call.modelAlias),
      call.outcome.reply⟩ : Event Ports) ∈ tr := by
  refine mem_providerCalls ?_
  rw [h.requests]
  exact List.mem_map_of_mem hcall

theorem outcome_isSome_iff (call : ProviderCall) :
    call.response.isSome ↔ ∃ response, call.outcome.reply = .ok response := by
  unfold ProviderCall.response
  cases call.outcome <;> simp [CallOutcome.reply]

/-- **The model of an invocation whose provider calls succeed** is the one that an evaluation from
the same state selected, or else the first fallback it found eligible; it is called alone, and
without one no model is called. -/
theorem invoke_predicted {result : InferenceResult}
    (hevaluate : Run (orchestrator.routeEvaluationService.evaluate request) tr₀ (.ok decision))
    (hread₀ : state.Read tr₀) (hrun : Run (orchestrator.invoke request) tr (.ok result))
    (hread : state.Read tr) (hnew : ¬ Replayed tr)
    (hsucceed : ∀ preq reply, (⟨.invoke preq, reply⟩ : Event Ports) ∈ tr →
      ∃ response, reply = .ok response) :
    ∃ policy, state.policies request.applicationId = .ok policy ∧
      result.decision.selectedModelAlias = predictedAlias decision policy.fallbackPolicy ∧
      (providerCalls tr).map (·.1.modelAlias) =
        (predictedAlias decision policy.fallbackPolicy).toList := by
  obtain ⟨decision', policy, calls, hinvoked⟩ := run_invoke_read hrun hread hnew
  obtain ⟨policy₀, hresolved₀, hevaluated⟩ := run_evaluate hevaluate
  have hsame : policy₀ = policy :=
    Except.ok.inj ((hread₀.policy _ _ hresolved₀).trans hinvoked.resolved)
  subst hsame
  obtain ⟨tr₁, hread₁, hevaluated'⟩ := hinvoked.evaluated
  obtain ⟨hselected, hconsidered⟩ := evaluated_agree hread₀ hread₁ hevaluated hevaluated'
  have hhead : (buildCandidateChain decision' policy₀.fallbackPolicy).head? =
      predictedAlias decision policy₀.fallbackPolicy := by
    rw [buildCandidateChain_head?, predictedAlias, predictedAlias, eligibleAliases, eligibleAliases,
      hselected,
      hconsidered]
  obtain ⟨haliases, hsucceeded⟩ := tried_of_succeeding hinvoked.tried fun call hcall =>
    (outcome_isSome_iff call).mpr (hsucceed _ _ (hinvoked.mem hcall))
  rw [hhead] at haliases hsucceeded
  refine ⟨policy₀, hinvoked.resolved, ?_, ?_⟩
  · by_cases hchain : buildCandidateChain decision' policy₀.fallbackPolicy = []
    · rw [hinvoked.concluded.not_attempted hchain, (buildCandidateChain_eq_nil_iff.mp hchain).1,
        ← hhead, hchain]
      rfl
    · rw [concluded_selected hinvoked.concluded hchain, hsucceeded]
  · rw [hinvoked.requests, List.map_map, ← haliases]
    rfl

/-! ## Nothing to select -/

/-- The strategy of the policy would select the candidate for the request, if it were eligible. -/
def selects (service : RouteEvaluationService) (request : InferenceRequest) (policy : RoutingPolicy)
    (candidate : RouteCandidate) : Bool :=
  selectable service.digestPrefix policy
    { applicationId := request.applicationId, conversationId := request.conversationId } candidate

/-- The strategy selects nothing exactly if it would select no eligible candidate. -/
theorem evaluated_selected_none_iff (h : service.Evaluated request policy tr decision) :
    decision.selectedModelAlias = none ↔ ∀ candidate ∈ decision.consideredCandidates,
      candidate.eligible →
      selects service request policy candidate = false := by
  cases h with
  | unavailable => exact iff_of_true rfl (by simp [routingDecision])
  | considered decisionId createdAt candidates selection hallowed hcandidates hselection =>
      show Option.map _ _ = none ↔ ∀ candidate ∈ candidates, _
      rw [Option.map_eq_none_iff, select_eq_none_iff hselection]
      constructor
      · intro hnone candidate hmem heligible
        exact hnone candidate (List.mem_filter.mpr ⟨hmem, heligible⟩)
      · intro hnone candidate hmem
        obtain ⟨hmem, heligible⟩ := List.mem_filter.mp hmem
        exact hnone candidate hmem heligible

/-- `NO_ELIGIBLE_MODEL` marks a decision that selected nothing, although the capability is
available. -/
theorem evaluated_noEligibleModel (h : service.Evaluated request policy tr decision) :
    .noEligibleModel ∈ decision.reasonCodes ↔
      .requiredCapabilityUnavailable ∉ decision.reasonCodes ∧
      decision.selectedModelAlias = none := by
  cases hselected : decision.selectedModelAlias with
  | none =>
      obtain ⟨hcodes | ⟨hcodes, -⟩, -⟩ := evaluated_none h hselected <;> simp [hcodes]
  | some modelAlias =>
      refine iff_of_false (fun hmem => ?_) (by simp)
      have hselected' : decision.selectedModelAlias ≠ none := by simp [hselected]
      exact evaluated_some h hselected' hmem (by simp [invocationCodes])

theorem Invoked.noEligibleModel {calls : List ProviderCall} {result : InferenceResult}
    (h : Invoked orchestrator request state tr decision policy calls result) :
    .noEligibleModel ∈ result.decision.reasonCodes ↔
      .noEligibleModel ∈ decision.reasonCodes ∧
      buildCandidateChain decision policy.fallbackPolicy = [] := by
  obtain ⟨tr₁, -, hevaluated⟩ := h.evaluated
  by_cases hchain : buildCandidateChain decision policy.fallbackPolicy = []
  · rw [h.concluded.not_attempted hchain]
    exact (and_iff_left hchain).symm
  · refine iff_of_false (fun hmem => ?_) fun hboth => hchain hboth.2
    have hfinal := aggregated_of_ok (h.concluded.attempted hchain)
    obtain ⟨call, -, hcode⟩ :=
      (mem_final_codes hevaluated hchain hfinal (by simp [invocationCodes])).mp hmem
    exact (not_attempted_not_mem_codes call).1 hcode

/-- **What `NO_ELIGIBLE_MODEL` says.** In a decision of `evaluate`: the capability is available, and
the strategy would select no eligible candidate. In a result of `invoke`: that, and no eligible
candidate is a fallback. -/
theorem noEligibleModel_iff (orchestrator : InvocationOrchestrator) (request : InferenceRequest)
    (state : RoutingState) :
    (∀ tr decision, Run (orchestrator.routeEvaluationService.evaluate request) tr (.ok decision) →
      state.Read tr →
      ∃ policy, state.policies request.applicationId = .ok policy ∧
        (.noEligibleModel ∈ decision.reasonCodes ↔
          .requiredCapabilityUnavailable ∉ decision.reasonCodes ∧
          ∀ candidate ∈ decision.consideredCandidates, candidate.eligible →
            selects orchestrator.routeEvaluationService request policy candidate = false)) ∧
    (∀ tr result, Run (orchestrator.invoke request) tr (.ok result) → state.Read tr →
      ¬ Replayed tr →
      ∃ policy, state.policies request.applicationId = .ok policy ∧
        (.noEligibleModel ∈ result.decision.reasonCodes ↔
          .requiredCapabilityUnavailable ∉ result.decision.reasonCodes ∧
            ∀ candidate ∈ result.decision.consideredCandidates, candidate.eligible →
              selects orchestrator.routeEvaluationService request policy candidate = false ∧
                candidate.modelAlias ∉ policy.fallbackPolicy.fallbackModelAliases)) := by
  constructor
  · intro tr decision hrun hread
    obtain ⟨policy, hresolved, hevaluated⟩ := run_evaluate hrun
    refine ⟨policy, (hread.policy _ _ hresolved).symm, ?_⟩
    rw [evaluated_noEligibleModel hevaluated, evaluated_selected_none_iff hevaluated]
  · intro tr result hrun hread hnew
    obtain ⟨decision, policy, calls, hinvoked⟩ := run_invoke_read hrun hread hnew
    obtain ⟨tr₁, -, hevaluated⟩ := hinvoked.evaluated
    have hnone := evaluated_selected_none_iff hevaluated
    refine ⟨policy, hinvoked.resolved, ?_⟩
    rw [hinvoked.noEligibleModel, evaluated_noEligibleModel hevaluated]
    by_cases hchain : buildCandidateChain decision policy.fallbackPolicy = []
    · obtain ⟨hselected, hfallback⟩ := buildCandidateChain_eq_nil_iff.mp hchain
      rw [hinvoked.concluded.not_attempted hchain]
      constructor
      · rintro ⟨⟨hcode, -⟩, -⟩
        refine ⟨hcode, fun candidate hmem heligible =>
          ⟨hnone.mp hselected candidate hmem heligible, fun halias => ?_⟩⟩
        exact hfallback _ halias (List.mem_map_of_mem (List.mem_filter.mpr ⟨hmem, heligible⟩))
      · rintro ⟨hcode, -⟩
        exact ⟨⟨hcode, hselected⟩, hchain⟩
    · refine iff_of_false (fun hboth => hchain hboth.2) ?_
      rintro ⟨-, hall⟩
      have hconsidered := (aggregated_of_ok (hinvoked.concluded.attempted hchain)).considered
      rw [hconsidered] at hall
      refine hchain (buildCandidateChain_eq_nil_iff.mpr ⟨hnone.mpr fun candidate hmem heligible =>
        (hall candidate hmem heligible).1, fun modelAlias halias hmem => ?_⟩)
      obtain ⟨candidate, hcandidate, rfl⟩ := List.mem_map.mp hmem
      obtain ⟨hcandidate, heligible⟩ := List.mem_filter.mp hcandidate
      exact (hall candidate hcandidate heligible).2 halias

/-! ## A scenario -/

/-- The event reads the health that is given. -/
def readsHealth (health : String → ModelHealthStatus) (event : Event Ports) : Bool :=
  match event with
  | ⟨.getHealth modelAlias, reply⟩ => reply = .ok (health modelAlias)
  | _ => true

theorem read_trace {α : Type} (world : World) (p : Prog Ports α) (s : WorldState)
    {health : String → ModelHealthStatus}
    (h : (trace world.answer p s).all (readsHealth health) = true) :
    RoutingState.Read ⟨world.policy, health⟩ (trace world.answer p s) where
  policy _ _ hev := (mem_trace hev).choose_spec
  health _ _ hev := of_decide_eq_true (List.all_eq_true.mp h _ hev)

/-- The primary model is unavailable, the fallback model is not. -/
def primaryUnavailable (modelAlias : String) : ModelHealthStatus :=
  if modelAlias = "primary" then .unavailable else .healthy

/-- There the evaluation selects nothing, and the invocation the fallback model. -/
theorem evaluate_not_predicting :
    (exec Scenario.answering.answer
      (Scenario.orchestrator.routeEvaluationService.evaluate Scenario.request)
      Scenario.primaryDown).1.toOption.map (·.selectedModelAlias) = some none ∧
    (exec Scenario.answering.answer (Scenario.orchestrator.invoke Scenario.request)
      Scenario.primaryDown).1.toOption.map (·.decision.selectedModelAlias) =
        some (some "fallback") := by
  decide +kernel

theorem scenario_predicted :
    ∃ (decision : RoutingDecision) (result : InferenceResult) (policy : RoutingPolicy),
    decision.selectedModelAlias = none ∧ result.decision.selectedModelAlias = some "fallback" ∧
      result.decision.selectedModelAlias = predictedAlias decision policy.fallbackPolicy := by
  have hdecided : (exec Scenario.answering.answer
      (Scenario.orchestrator.routeEvaluationService.evaluate Scenario.request)
        Scenario.primaryDown).1.toOption.map
        (·.selectedModelAlias) = some none := by decide +kernel
  have hresult : (exec Scenario.answering.answer (Scenario.orchestrator.invoke Scenario.request)
      Scenario.primaryDown).1.toOption.map (·.decision.selectedModelAlias) =
        some (some "fallback") := by decide +kernel
  obtain ⟨decision, hevaluate, hnone⟩ := run_of_exec hdecided
  obtain ⟨result, hrun, hselected⟩ := run_of_exec hresult
  have hread₀ := read_trace Scenario.answering
    (Scenario.orchestrator.routeEvaluationService.evaluate Scenario.request) Scenario.primaryDown
    (show List.all _ (readsHealth primaryUnavailable) = true by decide +kernel)
  have hread := read_trace Scenario.answering (Scenario.orchestrator.invoke Scenario.request)
      Scenario.primaryDown
    (show List.all _ (readsHealth primaryUnavailable) = true by decide +kernel)
  obtain ⟨policy, -, hpredicted, -⟩ :=
    invoke_predicted hevaluate hread₀ hrun hread (not_replayed_trace _ _ _)
    fun preq reply hev => ⟨Scenario.response preq.modelAlias, (mem_trace hev).choose_spec⟩
  exact ⟨decision, result, policy, hnone, hselected, hpredicted⟩

/-- Without fallback models the code stands in a decision and in a result that found an eligible
model. -/
theorem noEligibleModel_untruthful :
    (exec Scenario.withoutFallback.answer
      (Scenario.orchestrator.routeEvaluationService.evaluate Scenario.request)
      Scenario.primaryDown).1.toOption.map (fun decision =>
        (decision.reasonCodes, decision.consideredCandidates.any (·.eligible))) =
          some ([.noEligibleModel], true) ∧
    (exec Scenario.withoutFallback.answer (Scenario.orchestrator.invoke Scenario.request)
      Scenario.primaryDown).1.toOption.map (fun result =>
        (result.decision.reasonCodes, result.decision.consideredCandidates.any (·.eligible))) =
          some ([.noEligibleModel], true) := by
  decide +kernel

/-- There the strategy would not have selected the eligible model, nor is it a fallback. -/
theorem scenario_noEligibleModel :
    ∃ (result : InferenceResult) (policy : RoutingPolicy) (candidate : RouteCandidate),
    .noEligibleModel ∈ result.decision.reasonCodes ∧
    candidate ∈ result.decision.consideredCandidates ∧
      candidate.eligible = true ∧
      selects Scenario.orchestrator.routeEvaluationService Scenario.request policy candidate =
        false := by
  have hresult : (exec Scenario.withoutFallback.answer
      (Scenario.orchestrator.invoke Scenario.request)
      Scenario.primaryDown).1.toOption.map (fun result =>
        (result.decision.reasonCodes, result.decision.consideredCandidates.any (·.eligible))) =
          some ([.noEligibleModel], true) := by decide +kernel
  obtain ⟨result, hrun, hobserved⟩ := run_of_exec hresult
  obtain ⟨hcodes, hany⟩ := Prod.mk.inj hobserved
  obtain ⟨candidate, hmem, heligible⟩ := List.any_eq_true.mp hany
  have hread := read_trace Scenario.withoutFallback (Scenario.orchestrator.invoke Scenario.request)
      Scenario.primaryDown
    (show List.all _ (readsHealth primaryUnavailable) = true by decide +kernel)
  obtain ⟨policy, -, hiff⟩ :=
    (noEligibleModel_iff Scenario.orchestrator Scenario.request _).2 _ result hrun hread
    (not_replayed_trace _ _ _)
  have hcode : .noEligibleModel ∈ result.decision.reasonCodes := by simp [hcodes]
  exact ⟨result, policy, candidate, hcode, hmem, heligible,
    ((hiff.mp hcode).2 candidate hmem heligible).1⟩

end InvocationOrchestrator

end ModelRouter
