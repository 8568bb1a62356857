import ModelRouter.Application.Auditability

/-!
# What a reservation is completed with

`handing` observes which identifier a use case has drawn, and what it has completed its reservation
with.

* `spec_invoke_handing` : a use case completes its reservation once at most, with a result under the
  identifier that it has drawn, and returns this result; or it returns what it was replayed.
-/

namespace ModelRouter
open Effects Prog RouteEvaluationService InvocationOrchestrator

/-- The identifier that was drawn last, and what a reservation was completed with. -/
structure Handover (γ : Type) where
  drawn : Option String := none
  given : Option γ := none

/-- What is replayed to the use case satisfies `Φ`. -/
def handing (Φ : InferenceResult → Prop) : Monitor Ports (Handover InferenceResult) where
  owes st
    | .complete _ _ _ result _ _ => st.given = none ∧ st.drawn = some result.decision.decisionId
    | _ => True
  relies
    | _, .reserve _ _ _, .ok reservation => ∀ result, reservation.outcome = .completed →
      reservation.cachedResult = some result → Φ result
    | _, _, _ => True
  next
    | st, .newId _, .ok decisionId => { st with drawn := some decisionId }
    | st, .complete _ _ _ result _ _, _ => { st with given := some result }
    | st, _, _ => st

/-- The result was replayed, or it is the one that the reservation was completed with, if any. -/
def HandedOver (Φ : InferenceResult → Prop) (result : InferenceResult)
    (st : Handover InferenceResult) : Prop :=
  Φ result ∨ st.drawn = some result.decision.decisionId ∧ (st.given = none ∨ st.given = some result)

section
variable {Φ : InferenceResult → Prop} {orchestrator : InvocationOrchestrator}
  {request : InferenceRequest} {st : Handover InferenceResult}

/-- What is returned has the identifier that was drawn, and no reservation has been completed. -/
def Undelivered {α : Type} (name : α → String) (out : Except PyException α)
    (st : Handover InferenceResult) : Prop :=
  st.given = none ∧ ∀ a, out = .ok a → st.drawn = some (name a)

theorem undelivered_error {α : Type} {name : α → String} {x : PyException} (h : st.given = none) :
    Undelivered name (.error x) st := ⟨h, fun _ h => by cases h⟩

theorem spec_unfiled {α : Type} {P : Port → Prop} {p : Prog Ports α} (h : Only P p)
    (hP : ∀ port, P port → ¬ FilingPort port)
    (st : Handover InferenceResult) : Spec (handing Φ) p (fun _ st' => st' = st) st := by
  refine h.spec fun port hport => ?_
  have hquiet := hP port hport
  cases port with
  | newId | save | complete | reserve => exact absurd trivial hquiet
  | _ => exact ⟨trivial, fun _ => rfl⟩

theorem spec_buildDecision_handing {policy : RoutingPolicy} {selection : RouteSelection}
    {candidates : List RouteCandidate}
    {reasonCodes : List RoutingReasonCode} (hgiven : st.given = none) :
    Spec (handing Φ) (buildDecision request policy selection candidates reasonCodes)
      (Undelivered (·.decisionId)) st := by
  refine Spec.performBind trivial (fun decisionId _ => ?_) fun _ _ => undelivered_error hgiven
  refine Spec.performBind trivial (fun createdAt _ => ⟨hgiven, ?_⟩) fun _ _ =>
    undelivered_error hgiven
  intro decision hdecision
  cases hdecision
  rfl

theorem spec_evaluate_handing (service : RouteEvaluationService) (hgiven : st.given = none) :
    Spec (handing Φ) (service.evaluate request) (Undelivered (·.decisionId)) st := by
  have hcandidates : ∀ requirements policy messages models, Spec (handing Φ)
      (service.buildRouteCandidates requirements policy messages models) (fun _ st' =>
        st'.given = none) st := by
    intro requirements policy messages models
    refine (service.only_buildRouteCandidates requirements policy messages models).preserves
      (fun st port hport => ?_) hgiven
    cases port with
    | newId => exact ⟨trivial, fun reply hgiven => by cases reply <;> exact hgiven⟩
    | resolve | getHealth | now => exact ⟨trivial, fun _ => id⟩
    | _ => exact hport.elim
  refine Spec.performBind trivial (fun policy _ => ?_) fun _ _ => undelivered_error hgiven
  change Spec (handing Φ) _ _ st
  dsimp only
  split
  · exact spec_buildDecision_handing hgiven
  · split
    · exact spec_buildDecision_handing hgiven
    · refine Spec.bind (hcandidates _ _ _ _) (fun candidates st hgiven => ?_) fun _ _ =>
        undelivered_error
      exact Spec.ofExceptBind (fun _ _ => spec_buildDecision_handing hgiven) fun _ _ =>
        undelivered_error hgiven

theorem spec_record_handing {result : InferenceResult} (hgiven : st.given = none)
    (hdrawn : st.drawn = some result.decision.decisionId) :
    Spec (handing Φ) (orchestrator.record result) (Undelivered (·.decision.decisionId)) st := by
  have hrecord : ∀ {p : Prog Ports Unit}, Only RecordingPort p →
      Spec (handing Φ) p (fun _ st' => st' = st) st := by
    intro p honly
    refine honly.spec fun port hport => ?_
    cases port <;> first | exact hport.elim | exact ⟨trivial, fun _ => rfl⟩
  have hpersist : Only RecordingPort (orchestrator.persist result) := by
    unfold persist
    split
    · exact Only.perform trivial
    · trivial
  have hmetrics : Only RecordingPort (orchestrator.publishMetrics result) :=
    (orchestrator.only_publishMetrics result).mono fun port hport => hport ▸ trivial
  have hevent : Only RecordingPort (orchestrator.publishDecisionEvent result) :=
    (orchestrator.only_publishDecisionEvent result).mono fun port hport => hport ▸ trivial
  refine Spec.bind (hrecord hpersist) (fun _ _ hsame => ?_) fun _ _ hsame =>
    hsame ▸ undelivered_error hgiven
  subst hsame
  refine Spec.bind (hrecord hmetrics) (fun _ _ hsame => ?_) fun _ _ hsame =>
    hsame ▸ undelivered_error hgiven
  subst hsame
  refine Spec.bind (hrecord hevent) (fun _ _ hsame => ?_) fun _ _ hsame =>
    hsame ▸ undelivered_error hgiven
  subst hsame
  refine ⟨hgiven, ?_⟩
  rintro result' ⟨⟩
  exact hdrawn

theorem spec_invokeUncached_handing :
    Spec (handing Φ) (orchestrator.invokeUncached request)
      (Undelivered (·.decision.decisionId)) {} := by
  refine Spec.bind (spec_evaluate_handing _ rfl) (fun decision st h => ?_) fun _ _ h =>
    undelivered_error h.1
  obtain ⟨hgiven, hdrawn⟩ := h
  refine Spec.performBind trivial (fun policy _ => ?_) fun _ _ => undelivered_error hgiven
  change Spec (handing Φ) _ _ st
  unfold invokeDecision
  dsimp only
  split
  · exact spec_record_handing hgiven (hdrawn decision rfl)
  · have hloop : ∀ effective chain tried,
        Spec (handing Φ) (orchestrator.attemptChain request decision effective chain tried)
          (fun _ st' => st' = st) st := by
      intro effective chain tried
      refine spec_unfiled (orchestrator.only_attemptChain request decision effective chain tried)
        (fun port hport => ?_) st
      cases port <;> first | exact id | exact hport.elim
    refine Spec.bind (hloop _ _ _) (fun tried _ hsame => ?_) fun _ _ hsame =>
      hsame ▸ undelivered_error hgiven
    subst hsame
    refine Spec.ofExceptBind (fun final hfinal => ?_) fun _ _ => undelivered_error hgiven
    refine spec_record_handing hgiven ?_
    rw [hdrawn decision rfl]
    exact congrArg some (aggregateDecision_decisionId hfinal).symm

/-- **A use case completes its reservation with what it returns**, at most once; or it returns what
it was replayed. -/
theorem spec_invoke_handing :
    Spec (handing Φ) (orchestrator.invoke request) (fun out st => ∀ result, out = .ok result →
      HandedOver Φ result st)
      {} := by
  have huncached := @spec_invokeUncached_handing Φ orchestrator request
  have hplain : Spec (handing Φ) (orchestrator.invokeUncached request)
      (fun out st => ∀ result, out = .ok result → HandedOver Φ result st) {} :=
    huncached.mono fun out st h result hresult => Or.inr ⟨h.2 result hresult, Or.inl h.1⟩
  unfold invoke
  split
  · exact hplain
  · split
    · refine Spec.ofExceptBind (fun requestHash _ => ?_) fun _ _ _ h => by cases h
      refine Spec.performBind trivial (fun reservation hpromised => ?_) fun _ _ _ h => by cases h
      change Spec (handing Φ) _ _ {}
      split
      · exact fun _ h => by cases h
      · exact fun _ h => by cases h
      · rename_i hcompleted
        split
        · exact fun _ h => by cases h
        · rename_i result hcached
          rintro result' ⟨⟩
          exact Or.inl (hpromised result hcompleted hcached)
      · refine Spec.attemptBind huncached fun outcome st hundelivered => ?_
        obtain ⟨hgiven, hdrawn⟩ := hundelivered
        split
        · exact Spec.performBind trivial (fun _ _ _ h => by cases h) fun _ _ _ h => by cases h
        · rename_i result
          refine Spec.performBind trivial (fun policy _ => ?_) fun _ _ _ h => by cases h
          refine Spec.performBind ⟨hgiven, hdrawn result rfl⟩ (fun _ _ =>
            ?_) fun _ _ _ h => by cases h
          rintro result' ⟨⟩
          exact Or.inr ⟨hdrawn result rfl, Or.inr rfl⟩
    · exact hplain

end

end ModelRouter
