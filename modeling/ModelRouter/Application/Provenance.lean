import ModelRouter.Application.Fallback
import ModelRouter.Lib.Calendar

/-!
# Where a decision comes from

A use case works for one request: what it looks up, reserves, saves and publishes is of the
request's application (`InferenceRequest.Concerns`), as long as its store replays results of that
application only.

* `spec_evaluate_provenance`, `spec_invoke_provenance` : the decision of a use case is made for its
  request.
-/

namespace ModelRouter
open Effects Prog RouteEvaluationService

/-- The decision is made for an application, at a time that a `datetime` can hold. -/
structure RoutingDecision.MadeFor (decision : RoutingDecision) (applicationId : String) : Prop where
  applicationId : decision.applicationId = applicationId
  createdAt : Calendar.FourDigits decision.createdAt

/-- The calls that concern a request, whose hash is `requestHash`. -/
def InferenceRequest.Concerns (request : InferenceRequest)
    (requestHash : Except PyException String) : Port → Prop
  | .resolve applicationId => applicationId = request.applicationId
  | .reserve applicationId idempotencyKey hash =>
    applicationId = request.applicationId ∧ request.idempotencyKey = some idempotencyKey ∧
    requestHash = .ok hash
  | .complete applicationId idempotencyKey hash result _ _ =>
    (applicationId = request.applicationId ∧ request.idempotencyKey = some idempotencyKey ∧
      requestHash = .ok hash) ∧
      result.decision.MadeFor request.applicationId
  | .release applicationId idempotencyKey =>
    applicationId = request.applicationId ∧ request.idempotencyKey = some idempotencyKey
  | .invoke providerRequest => providerRequest.messages = request.messages
  | .save auditRecord => auditRecord.decision.MadeFor request.applicationId
  | .publishMetrics result | .publishEvent result => result.decision.MadeFor request.applicationId
  | .invokeStream _ | .yieldChunk _ => False
  | .getHealth _ | .recordOutcome _ _ | .newId _ | .now | .monotonic => True

/-- A time has a year of four digits, and what the store replays to an application was made for
it. -/
def Port.Promised : (port : Port) → Except PyException port.Answer → Prop
  | .now, .ok t => Calendar.FourDigits t
  | .reserve applicationId _ _, .ok reservation => ∀ result, reservation.outcome = .completed →
    reservation.cachedResult = some result → result.decision.MadeFor applicationId
  | _, _ => True

/-- An observer of the calls of one request. -/
abbrev provenance (request : InferenceRequest) (requestHash : Except PyException String) :
    Monitor Ports Unit :=
  .stateless (request.Concerns requestHash) Port.Promised

/-- A result is made for the request. -/
def MadeForRequest (request : InferenceRequest) (out : Except PyException InferenceResult)
    (_ : Unit) : Prop :=
  ∀ result, out = .ok result → result.decision.MadeFor request.applicationId

theorem madeForRequest_error {request : InferenceRequest} {x : PyException} :
    MadeForRequest request (.error x) () :=
  fun _ h => by cases h

/-! ## Evaluation -/

/-- The calls of an evaluation that concern a request. -/
def InferenceRequest.ConcernsEvaluation (request : InferenceRequest) : Port → Prop
  | .resolve applicationId => applicationId = request.applicationId
  | .getHealth _ | .newId _ | .now => True
  | _ => False

theorem InferenceRequest.ConcernsEvaluation.concerns {request : InferenceRequest} {port : Port}
    (h : request.ConcernsEvaluation port) (requestHash : Except PyException String) :
      request.Concerns requestHash port := by
  cases port <;> first | exact h | exact h.elim

section Evaluation
variable {request : InferenceRequest}

theorem spec_buildDecision_provenance {policy : RoutingPolicy} {selection : RouteSelection}
    {candidates : List RouteCandidate} {reasonCodes : List RoutingReasonCode} :
    Spec (.stateless request.ConcernsEvaluation Port.Promised)
      (buildDecision request policy selection candidates reasonCodes)
      (fun out _ => ∀ decision, out = .ok decision →
        decision.MadeFor request.applicationId) () := by
  refine Spec.performBind trivial (fun decisionId _ => ?_) fun _ _ _ h => by cases h
  refine Spec.performBind trivial (fun createdAt hcreatedAt => ?_) fun _ _ _ h => by cases h
  intro decision hdecision
  cases hdecision
  exact ⟨rfl, hcreatedAt⟩

/-- **A decision is made for the application of its request.** -/
theorem spec_evaluate_provenance (service : RouteEvaluationService) :
    Spec (.stateless request.ConcernsEvaluation Port.Promised) (service.evaluate request)
      (fun out _ => ∀ decision, out = .ok decision →
        decision.MadeFor request.applicationId) () := by
  refine Spec.performBind rfl (fun policy _ => ?_) fun _ _ _ h => by cases h
  dsimp only
  split
  · exact spec_buildDecision_provenance
  · split
    · exact spec_buildDecision_provenance
    · have hcandidates : ∀ requirements messages models, Only request.ConcernsEvaluation
          (service.buildRouteCandidates requirements policy messages models) := by
        intro requirements messages models
        induction models with
        | nil => trivial
        | cons model models ih =>
            refine Only.bind ?_ fun status => Only.bind (Only.ofExcept _) fun _ =>
              Only.bind ih fun _ => trivial
            unfold healthStatus
            split
            · exact Only.perform trivial
            · trivial
      refine Spec.bind (hcandidates _ _ _).stateless (fun _ _ _ => ?_) fun _ _ _ _ h => by cases h
      exact Spec.ofExceptBind (fun _ _ => spec_buildDecision_provenance) fun _ _ _ h => by cases h

end Evaluation

/-! ## Invocation -/

section Invocation
variable {orchestrator : InvocationOrchestrator} {request : InferenceRequest}
  {requestHash : Except PyException String}

theorem spec_record_provenance {result : InferenceResult}
    (h : result.decision.MadeFor request.applicationId) :
    Spec (provenance request requestHash) (orchestrator.record result)
      (MadeForRequest request) () := by
  have honly : Only (request.Concerns requestHash) (orchestrator.record result) := by
    unfold InvocationOrchestrator.record InvocationOrchestrator.persist
      InvocationOrchestrator.publishMetrics
      InvocationOrchestrator.publishDecisionEvent
    refine Only.bind ?_ fun _ => Only.bind ?_ fun _ => Only.bind ?_ fun _ => trivial
    all_goals
      split
      · exact Only.perform h
      · trivial
  refine Spec.of_run honly (fun _ _ => id) fun tr out hrun _ => ?_
  rintro result' rfl
  rw [(InvocationOrchestrator.run_record hrun).1]
  exact h

theorem only_attemptChain_concerns (decision : RoutingDecision)
    (effective : EffectiveRoutingRequirements)
    (chain : List String) (st : InvocationOrchestrator.Attempts) :
    Only (request.Concerns requestHash)
      (orchestrator.attemptChain request decision effective chain st) := by
  have hhealth : ∀ modelAlias status,
      Only (request.Concerns requestHash) (orchestrator.recordHealthOutcome modelAlias status) := by
    intro modelAlias status
    unfold InvocationOrchestrator.recordHealthOutcome
    split
    · exact Only.perform trivial
    · trivial
  induction chain generalizing st with
  | nil => trivial
  | cons candidateAlias chain ih =>
      refine Only.bind (Only.perform trivial) fun startedAt => ?_
      refine Only.tryPerformBind rfl fun reply => ?_
      cases reply with
      | ok response =>
          exact Only.bind (Only.perform trivial) fun finishedAt =>
            Only.bind (hhealth _ _) fun _ => trivial
      | error x =>
          cases x with
          | providerError message category =>
              refine Only.bind (Only.perform trivial) fun finishedAt =>
                Only.bind (hhealth _ _) fun _ => ?_
              split
              · trivial
              · exact ih _
          | _ => trivial

theorem aggregateDecision_madeFor {original final : RoutingDecision}
    {succeededAlias : Option String}
    {extraReasonCodes : List RoutingReasonCode} {applicationId : String}
    (h : original.MadeFor applicationId)
    (hfinal : InvocationOrchestrator.aggregateDecision original succeededAlias extraReasonCodes =
      .ok final) :
    final.MadeFor applicationId := by
  unfold InvocationOrchestrator.aggregateDecision at hfinal
  dsimp only at hfinal
  split at hfinal
  · cases hfinal
    exact ⟨h.applicationId, h.createdAt⟩
  · split at hfinal
    · cases hfinal
    · cases hfinal
      exact ⟨h.applicationId, h.createdAt⟩

theorem spec_invokeUncached_provenance :
    Spec (provenance request requestHash) (orchestrator.invokeUncached request)
      (MadeForRequest request) () := by
  have hevaluate : Spec (provenance request requestHash)
      (orchestrator.routeEvaluationService.evaluate request)
      (fun out _ => ∀ decision, out = .ok decision → decision.MadeFor request.applicationId) () :=
    (spec_evaluate_provenance _).weaken (fun _ _ hport => hport.concerns requestHash) (fun _ _ _ =>
      id) fun _ _ _ => rfl
  refine Spec.bind hevaluate (fun decision _ hmade => ?_) fun _ _ _ => madeForRequest_error
  have hdecision := hmade decision rfl
  refine Spec.performBind rfl (fun policy _ => ?_) fun _ _ => madeForRequest_error
  unfold InvocationOrchestrator.invokeDecision
  dsimp only
  split
  · exact spec_record_provenance hdecision
  · refine Spec.bind (only_attemptChain_concerns decision _ _ _).stateless (fun st _ _ =>
      ?_) fun _ _ _ => madeForRequest_error
    refine Spec.ofExceptBind (fun final hfinal => ?_) fun _ _ => madeForRequest_error
    exact spec_record_provenance (aggregateDecision_madeFor hdecision hfinal)

theorem spec_invokeReserved_provenance {idempotencyKey hash : String}
    (hkey : request.idempotencyKey = some idempotencyKey) (hhash : requestHash = .ok hash) :
    Spec (provenance request requestHash) (orchestrator.invokeReserved request idempotencyKey hash)
      (MadeForRequest request) () := by
  have huncached : Spec (provenance request requestHash)
      (orchestrator.invokeUncached request).attempt
      (fun out _ => ∀ outcome, out = .ok outcome → MadeForRequest request outcome ()) () := by
    refine Spec.attempt (spec_invokeUncached_provenance.mono fun out _ hmade outcome houtcome => ?_)
    cases houtcome
    exact hmade
  refine Spec.bind huncached (fun outcome _ hmade => ?_) fun _ _ _ => madeForRequest_error
  split
  · exact Spec.performBind ⟨rfl, hkey⟩ (fun _ _ => madeForRequest_error) fun _ _ =>
      madeForRequest_error
  · rename_i result
    have hresult : result.decision.MadeFor request.applicationId := hmade _ rfl result rfl
    refine Spec.performBind rfl (fun policy _ => ?_) fun _ _ => madeForRequest_error
    refine Spec.performBind ⟨⟨rfl, hkey, hhash⟩, hresult⟩ (fun _ _ => ?_) fun _ _ =>
      madeForRequest_error
    rintro result' ⟨⟩
    exact hresult

/-- **The calls of `invoke` concern its request, and its result is made for it.** -/
theorem spec_invoke_provenance :
    Spec (provenance request (orchestrator.computeRequestHash request))
      (orchestrator.invoke request) (MadeForRequest request) () := by
  unfold InvocationOrchestrator.invoke
  split
  · exact spec_invokeUncached_provenance
  · rename_i idempotencyKey hkey
    split
    · unfold InvocationOrchestrator.invokeWithIdempotency
      refine Spec.ofExceptBind (fun hash hhash => ?_) fun _ _ => madeForRequest_error
      refine Spec.performBind ⟨rfl, hkey, hhash⟩ (fun reservation hpromised => ?_) fun _ _ =>
        madeForRequest_error
      split
      · exact madeForRequest_error
      · exact madeForRequest_error
      · rename_i hcompleted
        split
        · exact madeForRequest_error
        · rename_i result hcached
          rintro result' ⟨⟩
          exact hpromised result hcompleted hcached
      · exact spec_invokeReserved_provenance hkey hhash
    · exact spec_invokeUncached_provenance

end Invocation

end ModelRouter
