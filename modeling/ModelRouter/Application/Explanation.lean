import ModelRouter.Application.Prediction

/-!
# Which reason codes explain the model that served

The codes of a result are those of the candidate the strategy selected, and those of the calls
(`mem_concluded_codes`). When another model served, they explain it only by coincidence:
`explains_iff` says when they do, given the route evaluated from the same state and the outcomes of
the provider's calls.
-/

namespace ModelRouter
open Effects Prog RouteEvaluationService

/-- The candidate of a model costs no more than any eligible candidate. -/
def Cheapest (candidates : List RouteCandidate) (modelAlias : String) : Prop :=
  ∀ candidate ∈ candidates, candidate.modelAlias = modelAlias →
    ∀ other ∈ candidates, other.eligible →
    candidate.estimatedCost.amountUsd ≤ other.estimatedCost.amountUsd

/-- The reason codes of a final decision explain the model that served. -/
structure Explains (service : RouteEvaluationService) (state : RoutingState)
    (final : RoutingDecision) : Prop where
  nonempty : final.reasonCodes ≠ []
  own : ∀ candidate ∈ final.consideredCandidates,
    final.selectedModelAlias = some candidate.modelAlias →
    ∀ code ∈ candidate.reasonCodes, code ∈ final.reasonCodes
  degraded : ∀ modelAlias, final.selectedModelAlias = some modelAlias →
    .modelDegraded ∈ final.reasonCodes →
    service.statusIn state modelAlias = .degraded
  lowest : ∀ modelAlias, final.selectedModelAlias = some modelAlias →
    .lowestEstimatedCost ∈ final.reasonCodes →
    Cheapest final.consideredCandidates modelAlias

namespace InvocationOrchestrator

/-- The model whose call succeeded. -/
def served (tr : List (Event Ports)) : Option String :=
  (providerCalls tr).getLast?.bind fun call => call.2.toOption.map fun _ => call.1.modelAlias

/-- The first call failed permanently. -/
def FirstPermanent (tr : List (Event Ports)) : Prop :=
  ∃ preq message, (providerCalls tr).head? = some (preq, .error (.providerError message .permanent))

/-- What has to hold of the evaluated route and of the outcomes for the codes to explain the model
that served. -/
structure Explainable (service : RouteEvaluationService) (state : RoutingState)
    (policy : RoutingPolicy) (decision : RoutingDecision) (tr : List (Event Ports)) : Prop where
  unselected : decision.selectedModelAlias = none → served tr = none ∧ ¬ FirstPermanent tr
  selected : ∀ selected modelAlias, decision.selectedModelAlias = some selected →
    served tr = some modelAlias →
    (service.statusIn state selected = .degraded ↔ service.statusIn state modelAlias = .degraded) ∧
      (policy.routingStrategy = .lowestCost → Cheapest decision.consideredCandidates modelAlias)

variable {orchestrator : InvocationOrchestrator} {service : RouteEvaluationService}
  {request : InferenceRequest}
  {decision : RoutingDecision} {policy : RoutingPolicy} {state : RoutingState}
  {tr tr₀ : List (Event Ports)} {calls : List ProviderCall} {result : InferenceResult}

/-! ## The candidates of an evaluation -/

theorem candidate_unique (hread : state.Read tr) (h : service.Evaluated request policy tr decision)
    {candidate candidate' : RouteCandidate} (hmem : candidate ∈ decision.consideredCandidates)
    (hmem' : candidate' ∈ decision.consideredCandidates)
    (halias : candidate.modelAlias = candidate'.modelAlias) :
    candidate = candidate' := by
  cases h with
  | unavailable => cases hmem
  | considered decisionId createdAt candidates selection hallowed hcandidates hselection =>
      have hevaluated := candidates_evaluated hread hcandidates
      obtain ⟨model, hmodel, hcandidate⟩ := exists_of_forall₂_mem hevaluated hmem
      obtain ⟨model', hmodel', hcandidate'⟩ := exists_of_forall₂_mem hevaluated hmem'
      obtain rfl := model_eq_of_alias hmodel hmodel' hcandidate hcandidate' halias
      exact Except.ok.inj (hcandidate.symm.trans hcandidate')

theorem mem_eligible_codes (hread : state.Read tr)
    (h : service.Evaluated request policy tr decision)
    {candidate : RouteCandidate} (hmem : candidate ∈ decision.consideredCandidates)
    (heligible : candidate.eligible = true)
    (code : RoutingReasonCode) : code ∈ candidate.reasonCodes ↔
      code ∈ eligibleCodes ∨ code = .modelDegraded ∧
      service.statusIn state candidate.modelAlias = .degraded := by
  cases h with
  | unavailable => cases hmem
  | considered decisionId createdAt candidates selection hallowed hcandidates hselection =>
      obtain ⟨model, -, hcandidate⟩ :=
        exists_of_forall₂_mem (candidates_evaluated hread hcandidates) hmem
      obtain ⟨halias, -, -, -, hel, hcodes⟩ := evaluateCandidate_ok hcandidate
      rw [hcodes, mem_sortReasonCodes, mem_codes_of_eligible (hel ▸ heligible), halias]

theorem mem_selected_codes (hread : state.Read tr)
    (h : service.Evaluated request policy tr decision) {selected : String}
    (hselected : decision.selectedModelAlias = some selected) :
    (∀ code ∈ eligibleCodes, code ∈ decision.reasonCodes) ∧
      (.modelDegraded ∈ decision.reasonCodes ↔ service.statusIn state selected = .degraded) ∧
      (.lowestEstimatedCost ∈ decision.reasonCodes ↔ policy.routingStrategy = .lowestCost) ∧
      (policy.routingStrategy = .lowestCost → Cheapest decision.consideredCandidates selected) := by
  have hevaluated := h
  cases h with
  | unavailable => cases hselected
  | considered decisionId createdAt candidates selection hallowed hcandidates hselection =>
      obtain ⟨candidate, hcandidate, rfl⟩ := Option.map_eq_some_iff.mp hselected
      obtain ⟨hmem, heligible⟩ := List.mem_filter.mp (select_mem hselection hcandidate)
      have hcodes := mem_eligible_codes hread hevaluated hmem heligible
      have hadded : ∀ code ∈ selection.additionalReasonCodes, code = .lowestEstimatedCost ∨
          code = .experimentRouteSelected :=
        fun code hcode => select_codes hselection hcode
      have hall : ∀ code, code ∈ routeReasonCodes selection ↔
          code ∈ candidate.reasonCodes ∨ code ∈ selection.additionalReasonCodes := by
        intro code
        rw [routeReasonCodes, hcandidate, mem_sortReasonCodes, List.mem_append]
      refine ⟨fun code hcode => ?_, ?_, ?_, fun hlowest => ?_⟩
      · exact (hall code).mpr (Or.inl ((hcodes code).mpr (Or.inl hcode)))
      · show .modelDegraded ∈ routeReasonCodes _ ↔ _
        rw [hall, hcodes]
        constructor
        · rintro ((hcode | ⟨-, hdegraded⟩) | hcode)
          · exact absurd hcode (by decide)
          · exact hdegraded
          · rcases hadded _ hcode with hcode | hcode <;> cases hcode
        · intro hdegraded
          exact Or.inl (Or.inr ⟨rfl, hdegraded⟩)
      · show .lowestEstimatedCost ∈ routeReasonCodes _ ↔ _
        rw [hall, hcodes, lowest_mem_select_codes hselection hcandidate]
        constructor
        · rintro ((hcode | ⟨hcode, -⟩) | hlowest)
          · exact absurd hcode (by decide)
          · cases hcode
          · exact hlowest
        · exact Or.inr
      · intro cheapest hcheapest halias other hother hel
        rw [candidate_unique hread hevaluated hcheapest hmem halias]
        rw [routeSelection, hlowest] at hselection
        exact lowestCost_le hselection hcandidate (List.mem_filter.mpr ⟨hother, hel⟩)

/-! ## The codes of a result -/

theorem mem_call_codes {call : ProviderCall} {code : RoutingReasonCode}
    (h : code ∈ call.codes decision) :
    code ∈ [RoutingReasonCode.modelThrottled, .modelUnavailable, .fallbackSelected] := by
  obtain ⟨modelAlias, outcome, latency⟩ := call
  cases outcome with
  | response response =>
      simp only [ProviderCall.codes, fallbackCode] at h
      split at h
      · simp [List.mem_singleton.mp h]
      · cases h
  | failure message category =>
      cases category <;> simp_all [ProviderCall.codes, reasonCodeForProviderErrorCategory]

/-- A code that speaks of no attempt stands in the result exactly if it stands in the evaluated
decision. -/
theorem mem_concluded_codes {chain : List String} (h : Concluded decision chain calls result)
    (hchain : chain ≠ []) {code : RoutingReasonCode}
    (hcode : code ∉ [RoutingReasonCode.modelThrottled, .modelUnavailable, .fallbackSelected])
    (hne : code ≠ .noEligibleModel) : code ∈ result.decision.reasonCodes ↔
    code ∈ decision.reasonCodes := by
  rw [(aggregated_of_ok (h.attempted hchain)).codes, mem_sortReasonCodes, List.mem_append,
    List.mem_flatMap,
    List.mem_filter]
  constructor
  · rintro (⟨hmem, -⟩ | ⟨call, -, hmem⟩)
    · exact hmem
    · exact absurd (mem_call_codes hmem) hcode
  · intro hmem
    exact Or.inl ⟨hmem, by simpa using hne⟩

/-- A call without a code failed permanently, or succeeded with the selected model. -/
theorem call_codes_eq_nil {call : ProviderCall} (h : call.codes decision = []) :
    call.status = .nonRetryableError ∨ call.response.isSome ∧
    some call.modelAlias = decision.selectedModelAlias := by
  obtain ⟨modelAlias, outcome, latency⟩ := call
  cases outcome with
  | response response =>
      refine Or.inr ⟨rfl, ?_⟩
      by_contra hne
      rw [ProviderCall.codes, fallbackCode, if_pos hne] at h
      cases h
  | failure message category =>
      cases category with
      | permanent => exact Or.inl rfl
      | throttled => cases h
      | transient => cases h
      | timeout => cases h

/-! ## What the provider's outcomes say -/

theorem Invoked.served_eq (h : Invoked orchestrator request state tr decision policy calls result) :
    served tr = (succeededCall calls).map (·.1.modelAlias) := by
  rw [served, h.requests, List.getLast?_map, succeededCall]
  cases calls.getLast? with
  | none => rfl
  | some call =>
      obtain ⟨modelAlias, outcome, latency⟩ := call
      cases outcome <;> rfl

theorem Invoked.firstPermanent_iff
    (h : Invoked orchestrator request state tr decision policy calls result) :
    FirstPermanent tr ↔ ∃ call, calls.head? = some call ∧ call.status = .nonRetryableError := by
  unfold FirstPermanent
  rw [h.requests, List.head?_map]
  cases calls.head? with
  | none => simp
  | some call =>
      obtain ⟨modelAlias, outcome, latency⟩ := call
      cases outcome with
      | response response => simp [CallOutcome.reply, ProviderCall.status]
      | failure message category =>
          cases category <;> simp [CallOutcome.reply, ProviderCall.status,
            statusForProviderErrorCategory]

theorem Invoked.selected_eq
    (h : Invoked orchestrator request state tr decision policy calls result) :
    result.decision.selectedModelAlias = served tr := by
  rw [h.served_eq]
  by_cases hchain : buildCandidateChain decision policy.fallbackPolicy = []
  · rw [h.concluded.not_attempted hchain, (buildCandidateChain_eq_nil_iff.mp hchain).1]
    have htried := h.tried
    rw [hchain] at htried
    cases htried
    rfl
  · exact concluded_selected h.concluded hchain

theorem Invoked.served_candidate
    (h : Invoked orchestrator request state tr decision policy calls result)
    {modelAlias : String} (hserved : served tr = some modelAlias) :
    ∃ candidate ∈ decision.consideredCandidates, candidate.modelAlias = modelAlias ∧
      candidate.eligible = true := by
  obtain ⟨tr₁, -, hevaluated⟩ := h.evaluated
  rw [h.served_eq] at hserved
  obtain ⟨⟨call, response⟩, hcall, rfl⟩ := Option.map_eq_some_iff.mp hserved
  have hinChain := h.tried.mem (List.mem_of_getLast? (succeededCall_mem hcall).1)
  obtain ⟨candidate, hmem, halias⟩ := List.mem_map.mp (mem_buildCandidateChain hevaluated hinChain)
  obtain ⟨hmem, heligible⟩ := List.mem_filter.mp hmem
  exact ⟨candidate, hmem, halias, heligible⟩

/-! ## When the codes explain the model -/

theorem explains_not_attempted
    (h : Invoked orchestrator request state tr decision policy calls result)
    (hchain : buildCandidateChain decision policy.fallbackPolicy = []) :
    Explains orchestrator.routeEvaluationService state result.decision ∧
      Explainable orchestrator.routeEvaluationService state policy decision tr := by
  obtain ⟨tr₁, -, hevaluated⟩ := h.evaluated
  have hnone := (buildCandidateChain_eq_nil_iff.mp hchain).1
  have hdecision := h.concluded.not_attempted hchain
  have hserved : served tr = none := by rw [← h.selected_eq, hdecision, hnone]
  have hcalls : calls = [] := by
    have htried := h.tried
    rw [hchain] at htried
    cases htried
    rfl
  constructor
  · rw [hdecision]
    refine ⟨?_, by simp [hnone], by simp [hnone], by simp [hnone]⟩
    rcases (evaluated_none hevaluated hnone).1 with hcodes | ⟨hcodes, -⟩ <;> simp [hcodes]
  · refine ⟨fun _ => ⟨hserved, ?_⟩, by simp [hnone]⟩
    rw [h.firstPermanent_iff, hcalls]
    simp

theorem explains_unselected (h : Invoked orchestrator request state tr decision policy calls result)
    (hchain : buildCandidateChain decision policy.fallbackPolicy ≠ [])
    (hnone : decision.selectedModelAlias = none) :
    Explains orchestrator.routeEvaluationService state result.decision ↔ served tr = none ∧
    ¬ FirstPermanent tr := by
  obtain ⟨tr₁, hread, hevaluated⟩ := h.evaluated
  have hfinal := aggregated_of_ok (h.concluded.attempted hchain)
  have hcodes : decision.reasonCodes = [.noEligibleModel] := by
    rcases (evaluated_none hevaluated hnone).1 with hcodes | ⟨-, hconsidered⟩
    · exact hcodes
    · obtain ⟨modelAlias, hmem⟩ := List.exists_mem_of_ne_nil _ hchain
      have heligible := mem_buildCandidateChain hevaluated hmem
      rw [eligibleAliases, hconsidered] at heligible
      cases heligible
  have hcallCodes : ∀ code, code ∈ result.decision.reasonCodes ↔
      ∃ call ∈ calls, code ∈ call.codes decision := by
    intro code
    rw [hfinal.codes, hcodes, mem_sortReasonCodes, List.mem_append, List.mem_flatMap]
    simp
  obtain ⟨first, rest, hfirst⟩ : ∃ first rest, calls = first :: rest := by
    refine List.exists_cons_of_ne_nil fun hnil => ?_
    have htried := h.tried
    rw [hnil] at htried
    generalize buildCandidateChain decision policy.fallbackPolicy = chain at hchain htried
    cases htried
    exact hchain rfl
  constructor
  · intro hexplains
    constructor
    · cases hserved : served tr with
      | none => rfl
      | some modelAlias =>
          -- the served model's own codes are missing
          have hselected : result.decision.selectedModelAlias = some modelAlias :=
            h.selected_eq.trans hserved
          obtain ⟨candidate, hmem, halias, heligible⟩ := h.served_candidate hserved
          have hallowed : .modelAllowed ∈ result.decision.reasonCodes :=
            hexplains.own candidate (hfinal.considered ▸ hmem)
              (hselected.trans (congrArg some halias.symm)) _
              ((mem_eligible_codes hread hevaluated hmem heligible _).mpr (Or.inl (by decide)))
          obtain ⟨call, -, hcode⟩ := (hcallCodes _).mp hallowed
          exact absurd (mem_call_codes hcode) (by decide)
    · rw [h.firstPermanent_iff, hfirst]
      rintro ⟨call, hcall, hpermanent⟩
      cases hcall
      refine hexplains.nonempty (List.eq_nil_iff_forall_not_mem.mpr fun code hmem => ?_)
      -- a permanent failure ends the loop and adds no code
      have htried := h.tried
      rw [hfirst] at htried
      have hrest : rest = [] := by
        generalize buildCandidateChain decision policy.fallbackPolicy = chain at htried
        cases htried with
        | final => rfl
        | next hnot => exact absurd (Or.inr hpermanent) hnot
      obtain ⟨call, hcall, hcode⟩ := (hcallCodes code).mp hmem
      rw [hfirst, hrest, List.mem_singleton] at hcall
      subst hcall
      obtain ⟨modelAlias, outcome, latency⟩ := call
      cases outcome with
      | response response => cases hpermanent
      | failure message category =>
          cases category <;> simp_all [ProviderCall.status, statusForProviderErrorCategory,
            ProviderCall.codes,
            reasonCodeForProviderErrorCategory]
  · rintro ⟨hserved, hpermanent⟩
    have hselected : result.decision.selectedModelAlias = none := h.selected_eq.trans hserved
    refine ⟨fun hnil => ?_, by simp [hselected], by simp [hselected], by simp [hselected]⟩
    have hempty : first.codes decision = [] := by
      refine List.eq_nil_iff_forall_not_mem.mpr fun code hcode => ?_
      have hmem := (hcallCodes code).mpr ⟨first, by simp [hfirst], hcode⟩
      rw [hnil] at hmem
      cases hmem
    rcases call_codes_eq_nil hempty with hstatus | ⟨-, hsame⟩
    · exact hpermanent (h.firstPermanent_iff.mpr ⟨first, by simp [hfirst], hstatus⟩)
    · rw [hnone] at hsame
      cases hsame

theorem explains_selected (h : Invoked orchestrator request state tr decision policy calls result)
    (hchain : buildCandidateChain decision policy.fallbackPolicy ≠ []) {selected : String}
    (hselected : decision.selectedModelAlias = some selected) :
    Explains orchestrator.routeEvaluationService state result.decision ↔
    ∀ modelAlias, served tr = some modelAlias →
      (orchestrator.routeEvaluationService.statusIn state selected = .degraded ↔
        orchestrator.routeEvaluationService.statusIn state modelAlias = .degraded) ∧
      (policy.routingStrategy = .lowestCost →
        Cheapest decision.consideredCandidates modelAlias) := by
  obtain ⟨tr₁, hread, hevaluated⟩ := h.evaluated
  obtain ⟨hbase, hdegraded, hlowest, -⟩ := mem_selected_codes hread hevaluated hselected
  have hfinal := aggregated_of_ok (h.concluded.attempted hchain)
  have hkept := fun code => @mem_concluded_codes decision calls result _ h.concluded hchain code
  have hdegraded' : .modelDegraded ∈ result.decision.reasonCodes ↔
      orchestrator.routeEvaluationService.statusIn state selected = .degraded :=
    (hkept _ (by decide) (by decide)).trans hdegraded
  have hlowest' : .lowestEstimatedCost ∈ result.decision.reasonCodes ↔
      policy.routingStrategy = .lowestCost :=
    (hkept _ (by decide) (by decide)).trans hlowest
  have hbase' : ∀ code ∈ eligibleCodes, code ∈ result.decision.reasonCodes := by
    intro code hcode
    refine (hkept code ?_ ?_).mpr (hbase code hcode)
    · revert hcode
      cases code <;> decide
    · rintro rfl
      exact absurd hcode (by decide)
  constructor
  · intro hexplains modelAlias hserved
    have hserving : result.decision.selectedModelAlias = some modelAlias :=
      h.selected_eq.trans hserved
    refine ⟨⟨fun hdeg => hexplains.degraded modelAlias hserving (hdegraded'.mpr hdeg), fun hdeg =>
      ?_⟩, fun hstrategy => ?_⟩
    · obtain ⟨candidate, hmem, halias, heligible⟩ := h.served_candidate hserved
      refine hdegraded'.mp (hexplains.own candidate (hfinal.considered ▸ hmem)
        (hserving.trans (congrArg some halias.symm)) _ ?_)
      exact (mem_eligible_codes hread hevaluated hmem heligible _).mpr (Or.inr ⟨rfl, halias ▸ hdeg⟩)
    · rw [← hfinal.considered]
      exact hexplains.lowest modelAlias hserving (hlowest'.mpr hstrategy)
  · intro hcondition
    refine ⟨fun hnil => ?_, fun candidate hmem hserving code hcode => ?_,
      fun modelAlias hserving hcode => ?_,
      fun modelAlias hserving hcode => ?_⟩
    · have hallowed := hbase' .modelAllowed (by decide)
      rw [hnil] at hallowed
      cases hallowed
    · rw [hfinal.considered] at hmem
      have hserved : served tr = some candidate.modelAlias := h.selected_eq.symm.trans hserving
      obtain ⟨eligible, hmem', halias, heligible⟩ := h.served_candidate hserved
      have hsame := candidate_unique hread hevaluated hmem' hmem halias
      subst hsame
      rcases (mem_eligible_codes hread hevaluated hmem' heligible code).mp hcode with hcode |
        ⟨rfl, hdeg⟩
      · exact hbase' code hcode
      · exact hdegraded'.mpr ((hcondition _ hserved).1.mpr hdeg)
    · exact (hcondition modelAlias (h.selected_eq.symm.trans hserving)).1.mp (hdegraded'.mp hcode)
    · rw [hfinal.considered]
      exact (hcondition modelAlias (h.selected_eq.symm.trans hserving)).2 (hlowest'.mp hcode)

/-- **When the codes of a result explain the model that served**: for the route evaluated from the
same state and the provider's outcomes. -/
theorem explains_iff
    (hevaluate : Run (orchestrator.routeEvaluationService.evaluate request) tr₀ (.ok decision))
    (hread₀ : state.Read tr₀) (hrun : Run (orchestrator.invoke request) tr (.ok result))
    (hread : state.Read tr) (hnew : ¬ Replayed tr) :
    ∃ policy, state.policies request.applicationId = .ok policy ∧
      (Explains orchestrator.routeEvaluationService state result.decision ↔
        Explainable orchestrator.routeEvaluationService state policy decision tr) := by
  obtain ⟨decision', policy, calls, hinvoked⟩ := run_invoke_read hrun hread hnew
  obtain ⟨policy₀, hresolved₀, hevaluated⟩ := run_evaluate hevaluate
  have hsame : policy₀ = policy :=
    Except.ok.inj ((hread₀.policy _ _ hresolved₀).trans hinvoked.resolved)
  subst hsame
  obtain ⟨tr₁, hread₁, hevaluated'⟩ := hinvoked.evaluated
  obtain ⟨hselected, hconsidered⟩ := evaluated_agree hread₀ hread₁ hevaluated hevaluated'
  have htransfer : Explainable orchestrator.routeEvaluationService state policy₀ decision tr ↔
      Explainable orchestrator.routeEvaluationService state policy₀ decision' tr := by
    constructor
    · rintro ⟨hunselected, hall⟩
      exact ⟨by rwa [hselected], by rwa [hselected, hconsidered]⟩
    · rintro ⟨hunselected, hall⟩
      exact ⟨by rwa [← hselected], by rwa [← hselected, ← hconsidered]⟩
  refine ⟨policy₀, hinvoked.resolved, ?_⟩
  rw [htransfer]
  by_cases hchain : buildCandidateChain decision' policy₀.fallbackPolicy = []
  · obtain ⟨hexplains, hexplainable⟩ := explains_not_attempted hinvoked hchain
    exact iff_of_true hexplains hexplainable
  · cases hcase : decision'.selectedModelAlias with
    | none =>
        rw [explains_unselected hinvoked hchain hcase]
        exact ⟨fun h => ⟨fun _ => h, by simp [hcase]⟩, fun h => h.unselected hcase⟩
    | some selected =>
        rw [explains_selected hinvoked hchain hcase]
        constructor
        · intro h
          refine ⟨by simp [hcase], fun chosen modelAlias hchosen hserved => ?_⟩
          rw [hcase] at hchosen
          cases hchosen
          exact h modelAlias hserved
        · intro h modelAlias hserved
          exact h.selected selected modelAlias hcase hserved

/-- The fallback model that serves in place of an unavailable one is explained by none of its own
codes. -/
theorem fallback_unexplained :
    (exec Scenario.answering.answer (Scenario.orchestrator.invoke Scenario.request)
      Scenario.primaryDown).1.toOption.map (fun result => (result.decision.selectedModelAlias,
        (result.decision.consideredCandidates.filter (·.modelAlias = "fallback")).map
          (·.reasonCodes),
        result.decision.reasonCodes)) =
      some (some "fallback", [[.capabilityMatch, .modelAllowed, .withinCostLimit,
        .qualityTierMatch]],
        [.fallbackSelected]) := by
  decide +kernel

theorem scenario_explained : ∃ (state : RoutingState) (result : InferenceResult),
    Explains Scenario.orchestrator.routeEvaluationService state result.decision ∧
      result.decision.selectedModelAlias = some "fallback" := by
  have hdecided : (exec Scenario.throttled.answer
      (Scenario.orchestrator.routeEvaluationService.evaluate Scenario.request)
        Scenario.fresh).1.toOption.map
        (·.selectedModelAlias) = some (some "primary") := by decide +kernel
  have hresult : (exec Scenario.throttled.answer (Scenario.orchestrator.invoke Scenario.request)
      Scenario.fresh).1.toOption.map (·.decision.selectedModelAlias) = some (some "fallback") := by
        decide +kernel
  obtain ⟨decision, hevaluate, hselected⟩ := run_of_exec hdecided
  obtain ⟨result, hrun, hserved⟩ := run_of_exec hresult
  have hread₀ := read_trace Scenario.throttled
    (Scenario.orchestrator.routeEvaluationService.evaluate Scenario.request) Scenario.fresh
    (show List.all _ (readsHealth fun _ => .healthy) = true by decide +kernel)
  have hread := read_trace Scenario.throttled (Scenario.orchestrator.invoke Scenario.request)
      Scenario.fresh
    (show List.all _ (readsHealth fun _ => .healthy) = true by decide +kernel)
  obtain ⟨policy, hpolicy, hiff⟩ :=
    explains_iff hevaluate hread₀ hrun hread (not_replayed_trace _ _ _)
  have hsame : Scenario.policy = policy := Except.ok.inj hpolicy
  refine ⟨_, result, hiff.mpr ⟨by simp [hselected], fun _ _ _ _ => ⟨?_, fun hstrategy => ?_⟩⟩,
    hserved⟩
  · simp [statusIn]
  · rw [← hsame] at hstrategy
    cases hstrategy

end InvocationOrchestrator

end ModelRouter
