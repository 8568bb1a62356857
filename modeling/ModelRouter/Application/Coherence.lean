import ModelRouter.Application.Fallback

/-!
# Coherence of the final decision

`Coherent` ties the fields of a result to each other and to the decision of the evaluation. The
codes of an evaluation speak of candidates only (`evaluated_some`, `evaluated_none`), those of the
attempt loop of calls only (`throttled_mem_codes` and the like), so the codes of the final decision
split (`mem_final_codes`); `invoke_coherent` is the result.
-/

namespace ModelRouter
open Effects Prog RouteEvaluationService

/-- What the result of an invocation says, given the decision of the evaluation. -/
structure Coherent (evaluated : RoutingDecision) (result : InferenceResult) : Prop where
  response_iff : result.decision.selectedModelAlias.isSome ↔ result.response.isSome
  succeeded_iff : result.decision.selectedModelAlias.isSome ↔
    ∃ attempt, result.invocationAttempts.getLast? = some attempt ∧ attempt.status = .succeeded
  last_attempt : ∀ modelAlias, result.decision.selectedModelAlias = some modelAlias →
    ∃ attempt, result.invocationAttempts.getLast? = some attempt ∧ attempt.modelAlias = modelAlias
  considered : ∀ modelAlias, result.decision.selectedModelAlias = some modelAlias →
    ∃ candidate ∈ result.decision.consideredCandidates, candidate.modelAlias = modelAlias
  candidate : ∀ candidate ∈ result.decision.consideredCandidates,
    result.decision.selectedModelAlias = some candidate.modelAlias →
    result.decision.provider = some candidate.provider ∧
      result.decision.estimatedUsage = some candidate.estimatedUsage ∧
      result.decision.estimatedCost = some candidate.estimatedCost
  nothing : result.decision.selectedModelAlias = none → result.decision.provider = none ∧
    result.decision.estimatedUsage = none ∧ result.decision.estimatedCost = none
  fallback_code : result.decision.fallbackUsed = true ↔
    .fallbackSelected ∈ result.decision.reasonCodes
  fallback_used : result.decision.fallbackUsed = true ↔
    ∃ modelAlias, result.decision.selectedModelAlias = some modelAlias ∧
      some modelAlias ≠ evaluated.selectedModelAlias
  not_attempted : (.noEligibleModel ∈ result.decision.reasonCodes ∨
    .requiredCapabilityUnavailable ∈ result.decision.reasonCodes) ↔ result.invocationAttempts = []
  throttled : .modelThrottled ∈ result.decision.reasonCodes ↔
    ∃ attempt ∈ result.invocationAttempts, attempt.status = .throttled
  unavailable : .modelUnavailable ∈ result.decision.reasonCodes ↔
    ∃ attempt ∈ result.invocationAttempts, attempt.status = .transientError ∨
      attempt.status = .timeout
  increasing : Increasing result.decision.reasonCodes

namespace InvocationOrchestrator

variable {orchestrator : InvocationOrchestrator} {service : RouteEvaluationService}
  {request : InferenceRequest}
  {decision : RoutingDecision} {policy : RoutingPolicy} {tr : List (Event Ports)}

/-! ## The codes of an evaluation -/

/-- The codes that speak of the invocation, not of a candidate. -/
def invocationCodes : List RoutingReasonCode :=
  [.modelThrottled, .modelUnavailable, .fallbackSelected, .noEligibleModel,
    .requiredCapabilityUnavailable]

theorem evaluated_increasing (h : service.Evaluated request policy tr decision) :
    Increasing decision.reasonCodes := by
  cases h with
  | unavailable => exact List.pairwise_singleton _ _
  | considered decisionId createdAt candidates selection hallowed hcandidates hselection =>
      show Increasing (routeReasonCodes _)
      unfold routeReasonCodes
      split
      · exact List.pairwise_singleton _ _
      · exact sortReasonCodes_increasing _

/-- The codes of a decision that selected a model speak of the candidate. -/
theorem evaluated_some (h : service.Evaluated request policy tr decision)
    (hselected : decision.selectedModelAlias ≠ none) {code : RoutingReasonCode}
    (hcode : code ∈ decision.reasonCodes) :
    code ∉ invocationCodes := by
  cases h with
  | unavailable => exact absurd rfl hselected
  | considered decisionId createdAt candidates selection hallowed hcandidates hselection =>
      have hcode' : code ∈ routeReasonCodes selection := hcode
      unfold routeReasonCodes at hcode'
      split at hcode'
      · rename_i hnone
        exact absurd (by simp [routingDecision, hnone]) hselected
      · rename_i selected hsome
        rw [mem_sortReasonCodes, List.mem_append] at hcode'
        rcases hcode' with hcandidate | hadded
        · have hmem := (List.mem_filter.mp (select_mem hselection hsome)).1
          obtain ⟨model, -, status, -, hevaluated⟩ := exists_of_forall₂_mem hcandidates hmem
          obtain ⟨-, -, -, -, -, hcodes⟩ := evaluateCandidate_ok hevaluated
          rw [hcodes, mem_sortReasonCodes] at hcandidate
          have := mem_candidateCodes hcandidate
          intro hinv
          revert this hinv
          cases code <;> decide
        · rcases select_codes hselection hadded with rfl | rfl <;> decide

theorem evaluated_none (h : service.Evaluated request policy tr decision)
    (hselected : decision.selectedModelAlias = none) :
    (decision.reasonCodes = [.noEligibleModel] ∨
      decision.reasonCodes = [.requiredCapabilityUnavailable] ∧
      decision.consideredCandidates = []) ∧
    decision.provider = none ∧ decision.estimatedUsage = none ∧ decision.estimatedCost = none := by
  cases h with
  | unavailable => exact ⟨Or.inr ⟨rfl, rfl⟩, rfl, rfl, rfl⟩
  | considered decisionId createdAt candidates selection hallowed hcandidates hselection =>
      have hnone : selection.selected = none := Option.map_eq_none_iff.mp hselected
      refine ⟨Or.inl ?_, ?_⟩
      · show routeReasonCodes _ = _
        rw [routeReasonCodes, hnone]
      · simp [routingDecision, hnone]

theorem evaluated_fallbackUsed (h : service.Evaluated request policy tr decision) :
    decision.fallbackUsed = false := by
  cases h <;> rfl

/-- Candidates of one alias are candidates of one model, and differ in their health only. -/
theorem candidates_agree (h : service.Evaluated request policy tr decision)
    {candidate candidate' : RouteCandidate} (hmem : candidate ∈ decision.consideredCandidates)
    (hmem' : candidate' ∈ decision.consideredCandidates)
    (halias : candidate.modelAlias = candidate'.modelAlias) :
    candidate.provider = candidate'.provider ∧
    candidate.estimatedUsage = candidate'.estimatedUsage ∧
      candidate.estimatedCost = candidate'.estimatedCost := by
  cases h with
  | unavailable => cases hmem
  | considered decisionId createdAt candidates selection hallowed hcandidates hselection =>
      obtain ⟨model, hmodel, status, -, hevaluated⟩ := exists_of_forall₂_mem hcandidates hmem
      obtain ⟨model', hmodel', status', -, hevaluated'⟩ := exists_of_forall₂_mem hcandidates hmem'
      obtain rfl := model_eq_of_alias hmodel hmodel' hevaluated hevaluated' halias
      obtain ⟨-, hprovider, husage, hcost, -, -⟩ := evaluateCandidate_ok hevaluated
      obtain ⟨-, hprovider', husage', hcost', -, -⟩ := evaluateCandidate_ok hevaluated'
      have hsame : candidate.estimatedUsage = candidate'.estimatedUsage := husage.trans husage'.symm
      refine ⟨hprovider.trans hprovider'.symm, hsame, ?_⟩
      rw [hsame] at hcost
      exact Except.ok.inj (hcost.symm.trans hcost')

/-! ## The codes of the calls -/

theorem throttled_mem_codes (call : ProviderCall) :
    .modelThrottled ∈ call.codes decision ↔ call.status = .throttled := by
  obtain ⟨modelAlias, outcome, latency⟩ := call
  cases outcome with
  | response response =>
      simp only [ProviderCall.codes, ProviderCall.status, fallbackCode]
      split <;> simp
  | failure message category =>
      cases category <;> simp [ProviderCall.codes, ProviderCall.status,
        reasonCodeForProviderErrorCategory,
        statusForProviderErrorCategory]

theorem unavailable_mem_codes (call : ProviderCall) :
    .modelUnavailable ∈ call.codes decision ↔ call.status = .transientError ∨
    call.status = .timeout := by
  obtain ⟨modelAlias, outcome, latency⟩ := call
  cases outcome with
  | response response =>
      simp only [ProviderCall.codes, ProviderCall.status, fallbackCode]
      split <;> simp
  | failure message category =>
      cases category <;> simp [ProviderCall.codes, ProviderCall.status,
        reasonCodeForProviderErrorCategory,
        statusForProviderErrorCategory]

theorem fallback_mem_codes (call : ProviderCall) :
    .fallbackSelected ∈ call.codes decision ↔
      call.response.isSome ∧ some call.modelAlias ≠ decision.selectedModelAlias := by
  obtain ⟨modelAlias, outcome, latency⟩ := call
  cases outcome with
  | response response =>
      simp only [ProviderCall.codes, ProviderCall.response, fallbackCode]
      split <;> simp_all
  | failure message category =>
      cases category <;> simp [ProviderCall.codes, ProviderCall.response,
        reasonCodeForProviderErrorCategory]

theorem not_attempted_not_mem_codes (call : ProviderCall) :
    .noEligibleModel ∉ call.codes decision ∧
    .requiredCapabilityUnavailable ∉ call.codes decision := by
  obtain ⟨modelAlias, outcome, latency⟩ := call
  cases outcome with
  | response response =>
      simp only [ProviderCall.codes, fallbackCode]
      split <;> simp
  | failure message category =>
      cases category <;> simp [ProviderCall.codes, reasonCodeForProviderErrorCategory]

/-! ## The call that succeeded -/

variable {chain : List String} {calls : List ProviderCall}

theorem succeeded_last (h : Tried chain calls) {call : ProviderCall} (hcall : call ∈ calls)
    (hresponse : call.response.isSome) : calls.getLast? = some call := by
  induction h with
  | exhausted => cases hcall
  | final => rw [List.mem_singleton.mp hcall]; rfl
  | @next head chain calls hnot ht ih =>
      rcases List.mem_cons.mp hcall with rfl | htail
      · rw [response_eq_none hnot] at hresponse
        cases hresponse
      · rw [List.getLast?_cons, ih htail]
        rfl

theorem response_isSome_iff (call : ProviderCall) :
    call.response.isSome ↔ call.status = .succeeded := by
  obtain ⟨modelAlias, outcome, latency⟩ := call
  cases outcome with
  | response response => simp [ProviderCall.response, ProviderCall.status]
  | failure message category =>
      cases category <;> simp [ProviderCall.response, ProviderCall.status,
        statusForProviderErrorCategory]

theorem succeededCall_isSome_iff : (succeededCall calls).isSome ↔
    ∃ attempt, (calls.map (·.attempt)).getLast? = some attempt ∧ attempt.status = .succeeded := by
  unfold succeededCall
  rw [List.getLast?_map]
  cases calls.getLast? with
  | none => simp
  | some call => simpa [ProviderCall.attempt] using response_isSome_iff call

/-! ## The aggregated decision -/

/-- What `_aggregate_decision` returns. -/
structure Aggregated (original : RoutingDecision) (succeededAlias : Option String)
    (extraReasonCodes : List RoutingReasonCode) (final : RoutingDecision) : Prop where
  selected : final.selectedModelAlias = succeededAlias
  considered : final.consideredCandidates = original.consideredCandidates
  codes : final.reasonCodes =
    sortReasonCodes (original.reasonCodes.filter (· ≠ .noEligibleModel) ++ extraReasonCodes)
  fallback_used : final.fallbackUsed = true ↔
    ∃ modelAlias, succeededAlias = some modelAlias ∧ some modelAlias ≠ original.selectedModelAlias
  nothing : succeededAlias = none →
    final.provider = none ∧ final.estimatedUsage = none ∧ final.estimatedCost = none
  candidate : ∀ modelAlias, succeededAlias = some modelAlias →
    ∃ candidate ∈ original.consideredCandidates, candidate.modelAlias = modelAlias ∧
      final.provider = some candidate.provider ∧
      final.estimatedUsage = some candidate.estimatedUsage ∧
      final.estimatedCost = some candidate.estimatedCost

theorem aggregated_of_ok {succeededAlias : Option String}
    {extraReasonCodes : List RoutingReasonCode} {final : RoutingDecision}
    (h : aggregateDecision decision succeededAlias extraReasonCodes = .ok final) :
    Aggregated decision succeededAlias extraReasonCodes final := by
  cases succeededAlias with
  | none =>
      cases h
      exact ⟨rfl, rfl, rfl, by simp, fun _ => ⟨rfl, rfl, rfl⟩, by simp⟩
  | some modelAlias =>
      unfold aggregateDecision at h
      dsimp only at h
      split at h
      · cases h
      · rename_i candidate hfind
        cases h
        have halias : candidate.modelAlias = modelAlias := by simpa using List.find?_some hfind
        refine ⟨rfl, rfl, rfl, by simp, by simp, fun a ha => ?_⟩
        cases ha
        exact ⟨candidate, List.mem_of_find?_eq_some hfind, halias, rfl, rfl, rfl⟩

/-- Nothing an evaluation says about the invocation is left once a model has been attempted. -/
theorem evaluated_codes_stale (h : service.Evaluated request policy tr decision)
    {fallbackPolicy : FallbackPolicy}
    (hne : buildCandidateChain decision fallbackPolicy ≠ []) {code : RoutingReasonCode}
    (hcode : code ∈ invocationCodes) :
      code ∉ decision.reasonCodes.filter (· ≠ .noEligibleModel) := by
  intro hmem
  obtain ⟨hmem, hstale⟩ := List.mem_filter.mp hmem
  by_cases hselected : decision.selectedModelAlias = none
  · obtain ⟨hcodes | ⟨-, hnone⟩, -⟩ := evaluated_none h hselected
    · rw [hcodes, List.mem_singleton] at hmem
      subst hmem
      simp at hstale
    · obtain ⟨modelAlias, hchain⟩ := List.exists_mem_of_ne_nil _ hne
      have heligible := mem_buildCandidateChain h hchain
      rw [eligibleAliases, hnone] at heligible
      cases heligible
  · exact evaluated_some h hselected hmem hcode

theorem mem_final_codes (h : service.Evaluated request policy tr decision)
    {fallbackPolicy : FallbackPolicy}
    (hne : buildCandidateChain decision fallbackPolicy ≠ []) {final : RoutingDecision}
    {succeededAlias : Option String}
    (hfinal : Aggregated decision succeededAlias (calls.flatMap (·.codes decision)) final)
    {code : RoutingReasonCode} (hcode : code ∈ invocationCodes) :
    code ∈ final.reasonCodes ↔ ∃ call ∈ calls, code ∈ call.codes decision := by
  rw [hfinal.codes, mem_sortReasonCodes, List.mem_append, List.mem_flatMap]
  constructor
  · rintro (hstale | hcalls)
    · exact absurd hstale (evaluated_codes_stale h hne hcode)
    · exact hcalls
  · exact Or.inr

theorem coherent_not_attempted {result : InferenceResult}
    (h : service.Evaluated request policy tr decision)
    {fallbackPolicy : FallbackPolicy} (hempty : buildCandidateChain decision fallbackPolicy = [])
    (hconcluded : Concluded decision [] [] result) : Coherent decision result := by
  have hselected : decision.selectedModelAlias = none := by
    cases hs : decision.selectedModelAlias with
    | none => rfl
    | some modelAlias =>
        have hmem : modelAlias ∈ buildCandidateChain decision fallbackPolicy :=
          selected_mem_chain hs
        rw [hempty] at hmem
        cases hmem
  have hattempts : result.invocationAttempts = [] := hconcluded.attempts
  have hresponse : result.response = none := hconcluded.response
  obtain ⟨hcodes, hprovider, husage, hcost⟩ := evaluated_none h hselected
  have hfallback := evaluated_fallbackUsed h
  have hdecision := hconcluded.not_attempted rfl
  have hsome : .noEligibleModel ∈ decision.reasonCodes ∨
      .requiredCapabilityUnavailable ∈ decision.reasonCodes := by
    rcases hcodes with hcodes | ⟨hcodes, -⟩ <;> simp [hcodes]
  have hno : ∀ code ∈ [RoutingReasonCode.modelThrottled, .modelUnavailable, .fallbackSelected],
      code ∉ decision.reasonCodes := by
    intro code hcode hmem
    rcases hcodes with hcodes | ⟨hcodes, -⟩
    · rw [hcodes, List.mem_singleton] at hmem
      simp [hmem] at hcode
    · rw [hcodes, List.mem_singleton] at hmem
      simp [hmem] at hcode
  rw [← hdecision] at hselected hprovider husage hcost hfallback hno hsome
  exact {
    response_iff := by simp [hselected, hresponse]
    succeeded_iff := by simp [hselected, hattempts]
    last_attempt := by simp [hselected]
    considered := by simp [hselected]
    candidate := by simp [hselected]
    nothing := fun _ => ⟨hprovider, husage, hcost⟩
    fallback_code := by simp [hfallback, hno]
    fallback_used := by simp [hfallback, hselected]
    not_attempted := iff_of_true hsome hattempts
    throttled := by simp [hno, hattempts]
    unavailable := by simp [hno, hattempts]
    increasing := hdecision ▸ evaluated_increasing h }

theorem coherent_attempted {result : InferenceResult}
    (h : service.Evaluated request policy tr decision)
    {fallbackPolicy : FallbackPolicy} (hne : buildCandidateChain decision fallbackPolicy ≠ [])
    (htried : Tried (buildCandidateChain decision fallbackPolicy) calls)
    (hconcluded : Concluded decision (buildCandidateChain decision fallbackPolicy) calls result) :
    Coherent decision result := by
  have hfinal := aggregated_of_ok (hconcluded.attempted hne)
  have hcodes : ∀ code ∈ invocationCodes,
      (code ∈ result.decision.reasonCodes ↔ ∃ call ∈ calls, code ∈ call.codes decision) :=
    fun code hcode => mem_final_codes h hne hfinal hcode
  have hcalls : calls ≠ [] := by
    intro hnil
    subst hnil
    generalize buildCandidateChain decision fallbackPolicy = chain at hne htried
    cases htried
    exact hne rfl
  have hsucceeded : ∀ modelAlias, (succeededCall calls).map (·.1.modelAlias) = some modelAlias ↔
      ∃ call ∈ calls, call.response.isSome ∧ call.modelAlias = modelAlias := by
    intro modelAlias
    constructor
    · intro hsome
      obtain ⟨⟨call, response⟩, hcall, halias⟩ := Option.map_eq_some_iff.mp hsome
      obtain ⟨hlast, hresponse⟩ := succeededCall_mem hcall
      exact ⟨call, List.mem_of_getLast? hlast, by rw [hresponse]; rfl, halias⟩
    · rintro ⟨call, hmem, hresponse, rfl⟩
      obtain ⟨response, hresponse'⟩ := Option.isSome_iff_exists.mp hresponse
      simp [succeededCall, succeeded_last htried hmem hresponse, hresponse']
  have hattempt : ∀ (P : InvocationAttemptStatus → Prop),
      (∃ attempt ∈ result.invocationAttempts, P attempt.status) ↔
        ∃ call ∈ calls, P call.status := by
    intro P
    rw [hconcluded.attempts]
    constructor
    · rintro ⟨attempt, hmem, hP⟩
      obtain ⟨call, hcall, rfl⟩ := List.mem_map.mp hmem
      exact ⟨call, hcall, hP⟩
    · rintro ⟨call, hcall, hP⟩
      exact ⟨call.attempt, List.mem_map_of_mem hcall, hP⟩
  exact {
    response_iff := by
      rw [hfinal.selected, hconcluded.response, Option.isSome_map, Option.isSome_map]
    succeeded_iff := by
      rw [hfinal.selected, hconcluded.attempts, Option.isSome_map]
      exact succeededCall_isSome_iff
    last_attempt := by
      intro modelAlias hselected
      rw [hfinal.selected] at hselected
      obtain ⟨⟨call, response⟩, hcall, halias⟩ := Option.map_eq_some_iff.mp hselected
      refine ⟨call.attempt, ?_, halias⟩
      rw [hconcluded.attempts, List.getLast?_map, (succeededCall_mem hcall).1]
      rfl
    considered := by
      intro modelAlias hselected
      rw [hfinal.selected] at hselected
      obtain ⟨candidate, hmem, halias, -⟩ := hfinal.candidate modelAlias hselected
      exact ⟨candidate, hfinal.considered ▸ hmem, halias⟩
    candidate := by
      intro candidate hmem hselected
      rw [hfinal.selected] at hselected
      rw [hfinal.considered] at hmem
      obtain ⟨found, hfound, halias, hprovider, husage, hcost⟩ := hfinal.candidate _ hselected
      obtain ⟨hprovider', husage', hcost'⟩ := candidates_agree h hfound hmem halias
      rw [hprovider, husage, hcost, hprovider', husage', hcost']
      exact ⟨rfl, rfl, rfl⟩
    nothing := fun hnone => hfinal.nothing (hfinal.selected ▸ hnone)
    fallback_code := by
      rw [hfinal.fallback_used, hcodes _ (by simp [invocationCodes])]
      constructor
      · rintro ⟨modelAlias, hsome, hdiffers⟩
        obtain ⟨call, hmem, hresponse, rfl⟩ := (hsucceeded modelAlias).mp hsome
        exact ⟨call, hmem, (fallback_mem_codes call).mpr ⟨hresponse, hdiffers⟩⟩
      · rintro ⟨call, hmem, hcode⟩
        obtain ⟨hresponse, hdiffers⟩ := (fallback_mem_codes call).mp hcode
        exact ⟨call.modelAlias, (hsucceeded _).mpr ⟨call, hmem, hresponse, rfl⟩, hdiffers⟩
    fallback_used := by rw [hfinal.fallback_used, hfinal.selected]
    not_attempted := by
      refine iff_of_false ?_ (by rw [hconcluded.attempts]; simpa using hcalls)
      rw [hcodes _ (by simp [invocationCodes]), hcodes _ (by simp [invocationCodes])]
      rintro (⟨call, -, hcode⟩ | ⟨call, -, hcode⟩)
      · exact (not_attempted_not_mem_codes call).1 hcode
      · exact (not_attempted_not_mem_codes call).2 hcode
    throttled := by
      rw [hcodes _ (by simp [invocationCodes]), hattempt fun status => status = .throttled]
      simp only [throttled_mem_codes]
    unavailable := by
      rw [hcodes _ (by simp [invocationCodes]), hattempt fun status => status = .transientError ∨
        status = .timeout]
      simp only [unavailable_mem_codes]
    increasing := by
      rw [hfinal.codes]
      exact sortReasonCodes_increasing _ }

/-! ## The use case -/

/-- The result is one the idempotency store had cached. -/
def Replayed (tr : List (Event Ports)) : Prop :=
  ∃ applicationId idempotencyKey requestHash reservation,
    (⟨.reserve applicationId idempotencyKey requestHash, .ok reservation⟩ : Event Ports) ∈ tr ∧
      reservation.outcome = .completed

/-- The ports a reservation is made and settled with. -/
def ReservationPort : Port → Prop
  | .resolve _ => True
  | port => StorePort port

/-- A result that is not replayed is one of `_invoke_uncached`, inside the steps of its
reservation. -/
theorem run_invoke_parts {result : InferenceResult}
    (h : Run (orchestrator.invoke request) tr (.ok result))
    (hnew : ¬ Replayed tr) : ∃ pre tr' post, tr = pre ++ tr' ++ post ∧
      Run (orchestrator.invokeUncached request) tr' (.ok result) ∧
      (∀ ev ∈ pre, ReservationPort ev.call) ∧ ∀ ev ∈ post, ReservationPort ev.call := by
  unfold invoke at h
  split at h
  · exact ⟨[], tr, [], by simp, h, by simp, by simp⟩
  · rename_i idempotencyKey _
    split at h
    · obtain ⟨requestHash, -, h⟩ := (run_ofExcept_bind_ok_iff _ _ _ _).mp h
      obtain ⟨reservation, tr₁, rfl, h₁⟩ := (run_perform_bind_ok_iff _ _ _ _).mp h
      dsimp only at h₁
      split at h₁
      · simp at h₁
      · simp at h₁
      · rename_i hcompleted
        exact absurd ⟨_, _, _, reservation, List.mem_cons_self, hcompleted⟩ hnew
      · obtain ⟨o, tr₂, tail, rfl, h₂, h₃⟩ := (run_attempt_bind_iff _ _ _ _).mp h₁
        cases o with
        | error x =>
            obtain ⟨_, _, _, h₄⟩ := (run_perform_bind_ok_iff _ _ _ _).mp h₃
            simp at h₄
        | ok returned =>
            obtain ⟨_, _, rfl, h₄⟩ := (run_perform_bind_ok_iff _ _ _ _).mp h₃
            obtain ⟨_, _, rfl, h₅⟩ := (run_perform_bind_ok_iff _ _ _ _).mp h₄
            obtain ⟨rfl, hsame⟩ := (run_ret_iff _ _ _).mp h₅
            cases hsame
            refine ⟨[_], tr₂, [_, _], rfl, h₂, fun ev hev => ?_, fun ev hev => ?_⟩
            · rw [List.mem_singleton.mp hev]
              trivial
            · rcases List.mem_pair.mp hev with rfl | rfl <;> trivial
    · exact ⟨[], tr, [], by simp, h, by simp, by simp⟩

theorem run_invoke_ok {result : InferenceResult}
    (h : Run (orchestrator.invoke request) tr (.ok result))
    (hnew : ¬ Replayed tr) : ∃ tr', tr' <:+: tr ∧
      Run (orchestrator.invokeUncached request) tr' (.ok result) := by
  obtain ⟨pre, tr', post, rfl, hrun, -, -⟩ := run_invoke_parts h hnew
  exact ⟨tr', ⟨pre, post, rfl⟩, hrun⟩

theorem aggregateDecision_total {tr₀ tr₁ : List (Event Ports)} {st : Attempts}
    {effective : EffectiveRoutingRequirements}
    (hevaluate : Run (orchestrator.routeEvaluationService.evaluate request) tr₀ (.ok decision))
    (hloop : Run (orchestrator.attemptChain request decision effective
      (buildCandidateChain decision policy.fallbackPolicy) {}) tr₁ (.ok st)) :
    ∃ final, aggregateDecision decision st.succeededAlias st.extraReasonCodes = .ok final := by
  obtain ⟨_, -, hevaluated⟩ := run_evaluate hevaluate
  obtain ⟨calls, htried, rfl, -, -⟩ := run_attemptChain hloop
  obtain ⟨-, halias⟩ := @foldl_succeeded decision _ _ htried {} rfl rfl
  rw [halias]
  cases hsucceeded : succeededCall calls with
  | none => exact ⟨_, rfl⟩
  | some found =>
      have hmem := htried.mem (List.mem_of_getLast? (succeededCall_mem hsucceeded).1)
      obtain ⟨candidate, -, -, hok⟩ :=
        aggregateDecision_some (mem_buildCandidateChain hevaluated hmem) _
      exact ⟨_, hok⟩

/-- **The final decision of `invoke` is coherent**, and the lookup of the candidate that succeeded
never fails. -/
theorem invoke_coherent (orchestrator : InvocationOrchestrator) (request : InferenceRequest) :
    (∀ tr result, Run (orchestrator.invoke request) tr (.ok result) → ¬ Replayed tr →
      ∃ tr₀ decision, tr₀ <:+: tr ∧
        Run (orchestrator.routeEvaluationService.evaluate request) tr₀ (.ok decision) ∧
        Coherent decision result) ∧
    (∀ tr₀ tr₁ decision st, ∀ policy : RoutingPolicy,
      Run (orchestrator.routeEvaluationService.evaluate request) tr₀ (.ok decision) →
      Run (orchestrator.attemptChain request decision
        (resolveEffectiveRequirements request.requirements policy)
        (buildCandidateChain decision policy.fallbackPolicy) {}) tr₁ (.ok st) →
      ∃ final, aggregateDecision decision st.succeededAlias st.extraReasonCodes = .ok final) := by
  refine ⟨fun tr result hrun hnew => ?_, fun tr₀ tr₁ decision st policy => aggregateDecision_total⟩
  obtain ⟨tr', hinfix, h⟩ := run_invoke_ok hrun hnew
  obtain ⟨decision, tr₀, tr₁, rfl, hevaluate, h₁⟩ := (run_bind_ok_iff _ _ _ _).mp h
  obtain ⟨policy, tr₂, rfl, h₂⟩ := (run_perform_bind_ok_iff _ _ _ _).mp h₁
  obtain ⟨_, -, hevaluated⟩ := run_evaluate hevaluate
  obtain ⟨calls, htried, hconcluded, -, -⟩ := run_invokeDecision h₂
  refine ⟨tr₀, decision, List.IsInfix.trans ⟨[], _, rfl⟩ hinfix, hevaluate, ?_⟩
  by_cases hempty : buildCandidateChain decision policy.fallbackPolicy = []
  · rw [hempty] at htried hconcluded
    cases htried
    exact coherent_not_attempted hevaluated hempty hconcluded
  · exact coherent_attempted hevaluated hempty htried hconcluded

/-- In a world every reservation is new. -/
theorem not_replayed_trace {α : Type} (world : World) (p : Prog Ports α) (s : WorldState) :
    ¬ Replayed (trace world.answer p s) := by
  rintro ⟨applicationId, idempotencyKey, requestHash, reservation, hmem, hcompleted⟩
  obtain ⟨s', hreply⟩ := mem_trace hmem
  cases hreply
  cases hcompleted

theorem scenario_coherent : ∃ decision result, Coherent decision result ∧
    result.decision.selectedModelAlias = some "fallback" ∧ result.decision.fallbackUsed = true := by
  have hresult : (exec Scenario.throttled.answer (Scenario.orchestrator.invoke Scenario.request)
      {}).1.toOption.map
      (fun result => (result.decision.selectedModelAlias, result.decision.fallbackUsed)) =
        some (some "fallback", true) := by decide +kernel
  have hrun := run_exec Scenario.throttled.answer (Scenario.orchestrator.invoke Scenario.request) {}
  have hnew := not_replayed_trace Scenario.throttled
      (Scenario.orchestrator.invoke Scenario.request) {}
  cases hout : (exec Scenario.throttled.answer (Scenario.orchestrator.invoke Scenario.request)
    {}).1 with
  | error x =>
      rw [hout] at hresult
      cases hresult
  | ok result =>
      rw [hout] at hrun hresult
      obtain ⟨_, decision, -, -, hcoherent⟩ :=
        (invoke_coherent Scenario.orchestrator Scenario.request).1 _ _ hrun hnew
      obtain ⟨hselected, hfallback⟩ := Prod.mk.inj (Option.some.inj hresult)
      exact ⟨decision, result, hcoherent, hselected, hfallback⟩

end InvocationOrchestrator

end ModelRouter
