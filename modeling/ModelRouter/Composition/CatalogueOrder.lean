import ModelRouter.Application.Execution
import ModelRouter.Application.ReservationProtocol
import ModelRouter.Lib.Permutation

/-!
# The order of the catalogue

`SameUpToOrder` : two decisions that differ in the order of their candidates at most. Over two
catalogues with the same entries in another order, an evaluation and an invocation come to the same
up to that (`order_irrelevant`): a candidate is determined by its alias, every strategy selects by a
key that determines the candidate, and the chain of attempts depends on which aliases are eligible,
not on their order.
-/

namespace ModelRouter
open Effects Prog RouteEvaluationService Permutation

/-! ## Strategies -/

section Strategies
variable {digestPrefix : String → Nat} {eligible eligible' candidates : List RouteCandidate}
  {policy : RoutingPolicy} {requirements : EffectiveRoutingRequirements} {context : RoutingContext}

/-- The alias determines the candidate. -/
def Determined (candidates : List RouteCandidate) : Prop :=
  ∀ candidate ∈ candidates, ∀ candidate' ∈ candidates,
    candidate.modelAlias = candidate'.modelAlias →
    candidate = candidate'

theorem Determined.filter (h : Determined candidates) (p : RouteCandidate → Bool) :
    Determined (candidates.filter p) :=
  fun candidate hmem candidate' hmem' =>
    h candidate (List.mem_of_mem_filter hmem) candidate' (List.mem_of_mem_filter hmem')

theorem find?_alias_eq (h : eligible.Perm eligible') (hdetermined : Determined eligible)
    (modelAlias : Option String) :
    (eligible.find? fun candidate => some candidate.modelAlias = modelAlias) =
      eligible'.find? fun candidate => some candidate.modelAlias = modelAlias := by
  refine find?_eq h fun candidate hmem candidate' hmem' halias halias' =>
    hdetermined _ hmem _ hmem' ?_
  exact Option.some.inj ((of_decide_eq_true halias).trans (of_decide_eq_true halias').symm)

/-- **A selection does not depend on the order of the candidates.** -/
theorem select_eq (strategy : RoutingStrategyType) (h : eligible.Perm eligible')
    (hdetermined : Determined eligible) :
    (getStrategy digestPrefix strategy).select eligible policy requirements context =
      (getStrategy digestPrefix strategy).select eligible' policy requirements context := by
  cases strategy with
  | preferredModel =>
      simp only [getStrategy, PreferredModelStrategy]
      rw [find?_alias_eq h hdetermined]
  | lowestCost =>
      have hkey : eligible.argmin costKey = eligible'.argmin costKey :=
        argmin_eq h fun candidate hmem candidate' hmem' hcost =>
          hdetermined _ hmem _ hmem' (congrArg (fun key => (ofLex key).2) hcost)
      simp only [getStrategy, LowestCostStrategy, hkey]
  | qualityTier =>
      simp only [getStrategy, QualityTierStrategy]
      rw [argmin_eq h hdetermined]
  | experiment =>
      have hfind : ∀ assigned, (eligible.find? fun candidate => candidate.modelAlias = assigned) =
          eligible'.find? fun candidate => candidate.modelAlias = assigned := by
        intro assigned
        simpa using find?_alias_eq h hdetermined (some assigned)
      simp only [getStrategy, ExperimentStrategy, hfind]

end Strategies

/-! ## Decisions -/

/-- Two decisions that differ in the order of their candidates at most. -/
def SameUpToOrder (decision decision' : RoutingDecision) : Prop :=
  decision.consideredCandidates.Perm decision'.consideredCandidates ∧
    decision' = { decision with consideredCandidates := decision'.consideredCandidates }

/-- Two outcomes that are related, or both exceptions. -/
def Outcomes {α : Type} (R : α → α → Prop) (o o' : Except PyException α) : Prop :=
  (∃ a a', o = .ok a ∧ o' = .ok a' ∧ R a a') ∨ ((∃ x, o = .error x) ∧ ∃ x, o' = .error x)

theorem Outcomes.error {α : Type} {R : α → α → Prop} (x : PyException) :
    Outcomes R (.error x) (.error x) :=
  .inr ⟨⟨x, rfl⟩, x, rfl⟩

namespace RouteEvaluationService

/-- The service with another catalogue. -/
def reordered (service : RouteEvaluationService) (modelCatalogue : ModelCatalogue) :
    RouteEvaluationService :=
  { service with modelCatalogue := modelCatalogue }

variable {service : RouteEvaluationService} {modelCatalogue : ModelCatalogue}
  {request : InferenceRequest} {policy : RoutingPolicy} {health : String → ModelHealthStatus}
  {candidates candidates' : List RouteCandidate}

theorem requestedModels_perm (h : service.modelCatalogue.models.Perm modelCatalogue.models) :
    (service.requestedModels request).Perm
      ((service.reordered modelCatalogue).requestedModels request) :=
  h.flatMap_right _

theorem candidatesIn_alike (h : service.modelCatalogue.models.Perm modelCatalogue.models) :
    Alike (service.candidatesIn request policy health)
      ((service.reordered modelCatalogue).candidatesIn request policy health) :=
  mapM_cases _ (requestedModels_perm h)

theorem candidatesIn_determined (h : service.candidatesIn request policy health = .ok candidates) :
    Determined candidates := by
  intro candidate hmem candidate' hmem' halias
  obtain ⟨model, hmodel, hcandidate⟩ := mem_mapM h hmem
  obtain ⟨model', hmodel', hcandidate'⟩ := mem_mapM h hmem'
  obtain rfl := model_eq_of_alias hmodel hmodel' hcandidate hcandidate' halias
  exact Except.ok.inj (hcandidate.symm.trans hcandidate')

theorem routeSelection_eq (hperm : candidates.Perm candidates')
    (hdetermined : Determined candidates) :
    service.routeSelection request policy candidates =
      (service.reordered modelCatalogue).routeSelection request policy candidates' :=
  select_eq policy.routingStrategy (hperm.filter _) (hdetermined.filter _)

/-- What the rest of an invocation needs of a decision and its counterpart. -/
structure Counterparts (decision decision' : RoutingDecision) : Prop where
  same : SameUpToOrder decision decision'
  determined : Determined decision.consideredCandidates

theorem decisionIn_counterparts (h : service.modelCatalogue.models.Perm modelCatalogue.models)
    (decisionId : String) (createdAt : Nat) : Outcomes Counterparts
      (service.decisionIn request policy health decisionId createdAt)
      ((service.reordered modelCatalogue).decisionIn request policy health decisionId
        createdAt) := by
  have hmodels := @requestedModels_perm service modelCatalogue request h
  have hempty : service.requestedModels request = [] ↔
      (service.reordered modelCatalogue).requestedModels request = [] :=
    ⟨fun hnil => (hnil ▸ hmodels).nil_eq.symm, fun hnil => (hnil ▸ hmodels).eq_nil⟩
  unfold decisionIn
  by_cases hunavailable : request.requirements.capability ∉ policy.allowedCapabilities ∨
      service.requestedModels request = []
  · rw [if_pos hunavailable, if_pos (hunavailable.imp_right hempty.mp)]
    exact .inl ⟨_, _, rfl, rfl, ⟨.refl _, rfl⟩, by simp [Determined, routingDecision]⟩
  · rw [if_neg hunavailable, if_neg fun hnot => hunavailable (hnot.imp_right hempty.mpr)]
    obtain ⟨candidates, candidates', hcandidates, hcandidates', hperm⟩ | ⟨⟨x, hx⟩, y, hy⟩ :=
      @candidatesIn_alike service modelCatalogue request policy health h
    · have hdetermined := candidatesIn_determined hcandidates
      have hselection := @routeSelection_eq service modelCatalogue request policy _ _ hperm
          hdetermined
      rw [hcandidates, hcandidates']
      show Outcomes Counterparts (service.routeSelection request policy candidates >>= _)
        ((service.reordered modelCatalogue).routeSelection request policy candidates' >>= _)
      rw [← hselection]
      cases service.routeSelection request policy candidates with
      | error x => exact .error x
      | ok selection => exact .inl ⟨_, _, rfl, rfl, ⟨hperm, rfl⟩, hdetermined⟩
    · rw [hx, hy]
      exact .inr ⟨⟨x, rfl⟩, y, rfl⟩

end RouteEvaluationService

/-! ## Attempts -/

namespace InvocationOrchestrator

/-- The orchestrator with another catalogue. -/
def reordered (orchestrator : InvocationOrchestrator) (modelCatalogue : ModelCatalogue) :
    InvocationOrchestrator :=
  { orchestrator with routeEvaluationService := orchestrator.routeEvaluationService.reordered modelCatalogue }

variable {orchestrator : InvocationOrchestrator} {modelCatalogue : ModelCatalogue}
  {request : InferenceRequest} {policy : RoutingPolicy} {decision decision' : RoutingDecision}

theorem extendChain_congr {eligible eligible' : List String}
    (h : ∀ modelAlias, modelAlias ∈ eligible ↔ modelAlias ∈ eligible')
    (maximumAttempts : Nat) (aliases chain : List String) :
    extendChain eligible maximumAttempts aliases chain =
      extendChain eligible' maximumAttempts aliases chain := by
  induction aliases generalizing chain with
  | nil => rfl
  | cons modelAlias aliases ih => simp only [extendChain, h, ih]

theorem buildCandidateChain_congr (h : SameUpToOrder decision decision')
    (fallbackPolicy : FallbackPolicy) :
    buildCandidateChain decision fallbackPolicy = buildCandidateChain decision' fallbackPolicy := by
  have hselected : decision'.selectedModelAlias = decision.selectedModelAlias := by rw [h.2]
  unfold buildCandidateChain
  rw [hselected]
  apply extendChain_congr
  intro modelAlias
  exact ((h.1.filter _).map _).mem_iff

theorem attemptChain_congr (h : SameUpToOrder decision decision')
    (effective : EffectiveRoutingRequirements) (chain : List String) (st : Attempts) :
      orchestrator.attemptChain request decision effective chain st =
      (orchestrator.reordered modelCatalogue).attemptChain request decision' effective
        chain st := by
  have hcode : ∀ modelAlias,
      fallbackCode decision modelAlias = fallbackCode decision' modelAlias := by
    intro modelAlias
    rw [h.2]
    rfl
  induction chain generalizing st with
  | nil => rfl
  | cons modelAlias chain ih =>
      simp only [attemptChain, ih, hcode]
      rfl

theorem aggregateDecision_congr (h : Counterparts decision decision')
    (succeededAlias : Option String) (extraReasonCodes : List RoutingReasonCode) :
    Outcomes SameUpToOrder (aggregateDecision decision succeededAlias extraReasonCodes)
      (aggregateDecision decision' succeededAlias extraReasonCodes) := by
  obtain ⟨hperm, heq⟩ := h.same
  have hselected : decision'.selectedModelAlias = decision.selectedModelAlias := by rw [heq]
  have hcodes : decision'.reasonCodes = decision.reasonCodes := by rw [heq]
  unfold aggregateDecision
  rw [hselected, hcodes]
  cases succeededAlias with
  | none => exact .inl ⟨_, _, rfl, rfl, hperm, by rw [heq]⟩
  | some modelAlias =>
      have hfind : (decision.consideredCandidates.find? fun candidate =>
          candidate.modelAlias = modelAlias) =
          decision'.consideredCandidates.find? fun candidate =>
            candidate.modelAlias = modelAlias := by
        simpa using find?_alias_eq hperm h.determined (some modelAlias)
      dsimp only
      rw [hfind]
      cases decision'.consideredCandidates.find? fun candidate =>
        candidate.modelAlias = modelAlias with
      | none => exact .error _
      | some selected => exact .inl ⟨_, _, rfl, rfl, hperm, by rw [heq]⟩

/-- Two results of the same attempts, whose decisions differ in the order of their candidates at
most. -/
structure SameResult (result result' : InferenceResult) : Prop where
  decision : SameUpToOrder result.decision result'.decision
  response : result'.response = result.response
  invocationAttempts : result'.invocationAttempts = result.invocationAttempts

variable {world : World} {s : WorldState}

theorem invokeDecision_outcomes (h : Counterparts decision decision') :
    Outcomes SameResult (exec world.answer
      (orchestrator.invokeDecision request decision policy) s).1
      (exec world.answer ((orchestrator.reordered modelCatalogue).invokeDecision request decision'
        policy) s).1 := by
  unfold invokeDecision
  dsimp only
  rw [← buildCandidateChain_congr h.same]
  split
  · rw [World.exec_record, World.exec_record]
    exact .inl ⟨_, _, rfl, rfl, h.same, rfl, rfl⟩
  · obtain ⟨s', -, hexec⟩ := @World.exec_attemptChain world request orchestrator decision
      (resolveEffectiveRequirements request.requirements policy)
      (buildCandidateChain decision policy.fallbackPolicy) {} s
    have hexec' := hexec
    rw [@attemptChain_congr orchestrator modelCatalogue request _ _ h.same] at hexec'
    rw [exec_bind_ok hexec, exec_bind_ok hexec']
    obtain ⟨final, final', hfinal, hfinal', hsame⟩ | ⟨⟨x, hx⟩, y, hy⟩ :=
      aggregateDecision_congr h _ _
    · rw [hfinal, hfinal', ofExcept_ok, ofExcept_ok, bind_ret, bind_ret, World.exec_record,
        World.exec_record]
      exact .inl ⟨_, _, rfl, rfl, hsame, rfl, rfl⟩
    · rw [hx, hy]
      exact .inr ⟨⟨x, rfl⟩, y, rfl⟩

theorem invokeUncached_outcomes
    (h : orchestrator.routeEvaluationService.modelCatalogue.models.Perm modelCatalogue.models) :
    Outcomes SameResult (exec world.answer (orchestrator.invokeUncached request) s).1
      (exec world.answer ((orchestrator.reordered modelCatalogue).invokeUncached request) s).1 := by
  unfold invokeUncached
  cases hpolicy : world.policy request.applicationId with
  | error x =>
      rw [exec_bind_error (World.exec_evaluate_error hpolicy),
        exec_bind_error (World.exec_evaluate_error hpolicy)]
      exact .error x
  | ok policy =>
      have hevaluate := @World.exec_evaluate world orchestrator.routeEvaluationService request
          policy s hpolicy
      have hevaluate' := @World.exec_evaluate world
          (orchestrator.reordered modelCatalogue).routeEvaluationService
        request policy s hpolicy
      have hresolve : world.answer (.resolve request.applicationId) s = (.ok policy, s) :=
        congrArg (·, s) hpolicy
      obtain ⟨decision, decision', hdecision, hdecision', hcounterparts⟩ | ⟨⟨x, hx⟩, y, hy⟩ :=
        @decisionIn_counterparts orchestrator.routeEvaluationService modelCatalogue request policy s.health.getHealth h
          world.decisionId world.now
      · rw [hdecision] at hevaluate
        rw [show (orchestrator.reordered modelCatalogue).routeEvaluationService.decisionIn request policy
          s.health.getHealth world.decisionId world.now = .ok decision' from hdecision'] at hevaluate'
        rw [exec_bind_ok hevaluate, exec_bind_ok hevaluate', exec_perform_bind hresolve,
          exec_perform_bind hresolve]
        exact invokeDecision_outcomes hcounterparts
      · rw [hx] at hevaluate
        rw [show (orchestrator.reordered modelCatalogue).routeEvaluationService.decisionIn request policy
          s.health.getHealth world.decisionId world.now = .error y from hy] at hevaluate'
        rw [exec_bind_error hevaluate, exec_bind_error hevaluate']
        exact .inr ⟨⟨x, rfl⟩, y, rfl⟩

end InvocationOrchestrator

/-! ## Requests with an idempotency key -/

/-- The world with a store that gives one reservation, or fails. -/
def World.reserving (world : World) (reservation : Except PyException IdempotencyReservation) :
    Handler Ports WorldState
  | .reserve _ _ _, s => (reservation, s)
  | port, s => world.answer port s

namespace InvocationOrchestrator

variable {orchestrator : InvocationOrchestrator} {modelCatalogue : ModelCatalogue}
  {request : InferenceRequest}
  {world : World} {reservation : Except PyException IdempotencyReservation} {s : WorldState}

/-- Without a call of the store, a reservation makes no difference. -/
theorem exec_reserving :
    exec (world.reserving reservation) (orchestrator.invokeUncached request) s =
    exec world.answer (orchestrator.invokeUncached request) s := by
  refine (orchestrator.only_invokeUncached request).exec_congr (fun port hport s => ?_) s
  cases port <;> first | rfl | exact absurd trivial hport

theorem exec_completeReservation (idempotencyKey requestHash : String) (result : InferenceResult) :
    (exec (world.reserving reservation)
      (completeReservation request idempotencyKey requestHash result) s).1 =
      (world.policy request.applicationId).map fun _ => result := by
  rw [completeReservation, exec_bind, exec_perform]
  simp only [World.reserving, World.answer]
  cases world.policy request.applicationId <;> rfl

theorem invokeReserved_outcomes
    (h : orchestrator.routeEvaluationService.modelCatalogue.models.Perm modelCatalogue.models)
    (idempotencyKey requestHash : String) :
    Outcomes SameResult
      (exec (world.reserving reservation)
        (orchestrator.invokeReserved request idempotencyKey requestHash) s).1
      (exec (world.reserving reservation)
        ((orchestrator.reordered modelCatalogue).invokeReserved request idempotencyKey requestHash)
          s).1 := by
  have houtcomes := @invokeUncached_outcomes orchestrator modelCatalogue request world s h
  rw [← exec_reserving, ← exec_reserving] at houtcomes
  rw [invokeReserved, invokeReserved, exec_bind_ok (exec_attempt _ _ _),
    exec_bind_ok (exec_attempt _ _ _)]
  obtain ⟨result, result', hresult, hresult', hsame⟩ | ⟨⟨x, hx⟩, y, hy⟩ := houtcomes
  · rw [hresult, hresult']
    dsimp only
    rw [exec_completeReservation, exec_completeReservation]
    cases world.policy request.applicationId with
    | error x => exact .error x
    | ok policy => exact .inl ⟨result, result', rfl, rfl, hsame⟩
  · rw [hx, hy]
    exact .inr ⟨⟨x, rfl⟩, y, rfl⟩

theorem SameResult.refl (result : InferenceResult) : SameResult result result :=
  ⟨⟨.refl _, rfl⟩, rfl, rfl⟩

theorem invokeWithIdempotency_outcomes
    (h : orchestrator.routeEvaluationService.modelCatalogue.models.Perm modelCatalogue.models)
    (idempotencyKey : String) :
    Outcomes SameResult
      (exec (world.reserving reservation)
        (orchestrator.invokeWithIdempotency request idempotencyKey) s).1
      (exec (world.reserving reservation)
        ((orchestrator.reordered modelCatalogue).invokeWithIdempotency request idempotencyKey)
          s).1 := by
  have hhash : (orchestrator.reordered modelCatalogue).computeRequestHash request =
      orchestrator.computeRequestHash request := rfl
  unfold invokeWithIdempotency
  rw [hhash]
  cases orchestrator.computeRequestHash request with
  | error x => exact .error x
  | ok requestHash =>
      rw [ofExcept_ok, bind_ret, bind_ret]
      cases reservation with
      | error x =>
          rw [exec_bind_error (exec_perform _ _ _), exec_bind_error (exec_perform _ _ _)]
          exact .error x
      | ok reservation =>
          rw [exec_bind_ok (exec_perform _ _ _), exec_bind_ok (exec_perform _ _ _)]
          cases reservation.outcome with
          | conflict => exact .error _
          | inProgress => exact .error _
          | completed =>
              dsimp only
              cases reservation.cachedResult with
              | none => exact .error _
              | some result => exact .inl ⟨result, result, rfl, rfl, .refl result⟩
          | new => exact invokeReserved_outcomes h _ _

theorem evaluate_outcomes
    (h : orchestrator.routeEvaluationService.modelCatalogue.models.Perm modelCatalogue.models) :
    Outcomes SameUpToOrder
      (exec (world.reserving reservation) (orchestrator.routeEvaluationService.evaluate request) s).1
      (exec (world.reserving reservation)
        ((orchestrator.reordered modelCatalogue).routeEvaluationService.evaluate request) s).1 := by
  have hevaluates : ∀ service : RouteEvaluationService,
      exec (world.reserving reservation) (service.evaluate request) s =
      exec world.answer (service.evaluate request) s := by
    intro service
    refine (service.only_evaluate request).exec_congr (fun port hport s => ?_) s
    cases port <;> first | rfl | exact hport.elim
  rw [hevaluates, hevaluates]
  cases hpolicy : world.policy request.applicationId with
  | error x =>
      rw [World.exec_evaluate_error hpolicy, World.exec_evaluate_error hpolicy]
      exact .error x
  | ok policy =>
      rw [World.exec_evaluate hpolicy, World.exec_evaluate hpolicy]
      obtain ⟨decision, decision', hdecision, hdecision', hcounterparts⟩ | herrors :=
        @decisionIn_counterparts orchestrator.routeEvaluationService modelCatalogue request policy s.health.getHealth h
          world.decisionId world.now
      · exact .inl ⟨decision, decision', hdecision, hdecision', hcounterparts.same⟩
      · exact .inr herrors

/-- **The order of the catalogue does not matter.** Over a catalogue with the same models in another
order, where a model's outcome depends on its alias alone, an evaluation comes to the same decision
up to the order of its candidates, and an invocation to the same attempts, the same response and
such a decision; or both raise. -/
theorem order_irrelevant
    (h : orchestrator.routeEvaluationService.modelCatalogue.models.Perm modelCatalogue.models) :
    Outcomes SameUpToOrder
        (exec (world.reserving reservation) (orchestrator.routeEvaluationService.evaluate request) s).1
        (exec (world.reserving reservation)
          ((orchestrator.reordered modelCatalogue).routeEvaluationService.evaluate request) s).1 ∧
      Outcomes SameResult (exec (world.reserving reservation) (orchestrator.invoke request) s).1
        (exec (world.reserving reservation) ((orchestrator.reordered modelCatalogue).invoke request)
          s).1 := by
  refine ⟨evaluate_outcomes h, ?_⟩
  have huncached : Outcomes SameResult
      (exec (world.reserving reservation) (orchestrator.invokeUncached request) s).1
      (exec (world.reserving reservation)
        ((orchestrator.reordered modelCatalogue).invokeUncached request) s).1 := by
    rw [exec_reserving, exec_reserving]
    exact invokeUncached_outcomes h
  have hstore : (orchestrator.reordered modelCatalogue).hasIdempotencyStore =
      orchestrator.hasIdempotencyStore := rfl
  unfold invoke
  cases request.idempotencyKey with
  | none => exact huncached
  | some idempotencyKey =>
      dsimp only
      rw [hstore]
      by_cases hhas : orchestrator.hasIdempotencyStore = true
      · rw [if_pos hhas, if_pos hhas]
        exact invokeWithIdempotency_outcomes h idempotencyKey
      · rw [if_neg hhas, if_neg hhas]
        exact huncached

end InvocationOrchestrator

/-! ## The scenario's catalogue, read backwards -/

namespace Scenario
open InvocationOrchestrator

def backwards : ModelCatalogue where
  models := catalogue.models.reverse

theorem served_backwards :
    catalogue.models.Perm backwards.models ∧
      Outcomes SameUpToOrder
        (exec (throttled.reserving (.ok { outcome := .new }))
          (orchestrator.routeEvaluationService.evaluate keyed) fresh).1
        (exec (throttled.reserving (.ok { outcome := .new }))
          ((orchestrator.reordered backwards).routeEvaluationService.evaluate keyed) fresh).1 ∧
      Outcomes SameResult
        (exec (throttled.reserving (.ok { outcome := .new })) (orchestrator.invoke keyed) fresh).1
        (exec (throttled.reserving (.ok { outcome := .new }))
          ((orchestrator.reordered backwards).invoke keyed) fresh).1 :=
  have hperm : catalogue.models.Perm backwards.models := (List.reverse_perm _).symm
  ⟨hperm, order_irrelevant hperm⟩

end Scenario

end ModelRouter
