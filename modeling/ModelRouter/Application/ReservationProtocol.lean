import ModelRouter.Application.Orchestrator

/-!
# The reservation protocol

What a caller of the idempotency store owes: it completes or releases only a reservation that was
answered NEW, once, with its own application, key and hash, and reserves nothing while it holds one
(`reservationProtocol`). `spec_invoke_protocol` : `invoke` keeps the protocol on every run, whatever
its ports answer.
-/

namespace ModelRouter
open Effects Prog

/-- A reservation that was answered NEW and is neither completed nor released. -/
structure HeldReservation where
  applicationId : String
  idempotencyKey : String
  requestHash : String
deriving DecidableEq, Repr

def HeldReservation.key (held : HeldReservation) : String × String :=
  (held.applicationId, held.idempotencyKey)

def reservationProtocol : Monitor Ports (Option HeldReservation) where
  owes held port := match port with
    | .reserve _ _ _ => held = none
    | .complete applicationId idempotencyKey requestHash _ _ _ =>
      held = some { applicationId, idempotencyKey, requestHash }
    | .release applicationId idempotencyKey =>
      ∃ requestHash, held = some { applicationId, idempotencyKey, requestHash }
    | _ => True
  relies _ _ _ := True
  next held port reply := match port, reply with
    | .reserve applicationId idempotencyKey requestHash, .ok reservation =>
      if reservation.outcome = .new
        then some { applicationId, idempotencyKey, requestHash } else held
    | .complete _ _ _ _ _ _, _ => none
    | .release _ _, _ => none
    | _, _ => held

theorem next_reserve (held : Option HeldReservation)
    (applicationId idempotencyKey requestHash : String) (reservation : IdempotencyReservation) :
    reservationProtocol.next held (.reserve applicationId idempotencyKey requestHash)
      (.ok reservation) =
      if reservation.outcome = .new then some { applicationId, idempotencyKey, requestHash }
        else held := rfl

namespace InvocationOrchestrator

variable (orchestrator : InvocationOrchestrator) (request : InferenceRequest)

/-! ## The guarded part makes no call of the store -/

theorem only_invokeUncached :
    Only (fun port => ¬ StorePort port) (orchestrator.invokeUncached request) := by
  have hrecord : ∀ result, Only (fun port => ¬ StorePort port) (orchestrator.record result) := by
    intro result
    refine (orchestrator.only_record result).mono fun port h => ?_
    cases port <;> first | exact id | exact h.elim
  have hloop : ∀ decision effective chain st,
      Only (fun port => ¬ StorePort port)
        (orchestrator.attemptChain request decision effective chain st) := by
    intro decision effective chain st
    refine (orchestrator.only_attemptChain request decision effective chain st).mono fun port h =>
      ?_
    cases port <;> first | exact id | exact h.elim
  have hevaluate : Only (fun port => ¬ StorePort port)
      (orchestrator.routeEvaluationService.evaluate request) := by
    refine (orchestrator.routeEvaluationService.only_evaluate request).mono fun port h => ?_
    cases port <;> first | exact id | exact h.elim
  refine Only.bind hevaluate fun decision => Only.bind (Only.perform id) fun policy => ?_
  unfold invokeDecision
  dsimp only
  split
  · exact hrecord _
  · refine Only.bind (hloop _ _ _ _) fun st => ?_
    exact Only.bind (Only.ofExcept _) fun finalDecision => hrecord _

/-! ## The use case -/

variable {orchestrator request}

theorem spec_aside {α : Type} {p : Prog Ports α} (honly : Only (fun port => ¬ StorePort port) p)
    (held : Option HeldReservation) :
      Spec reservationProtocol p (fun _ held' => held' = held) held := by
  refine honly.spec fun port hport => ?_
  cases port <;> first | exact ⟨trivial, fun _ => rfl⟩ | exact absurd trivial hport

theorem spec_invokeReserved_protocol (idempotencyKey requestHash : String) :
    Spec reservationProtocol (orchestrator.invokeReserved request idempotencyKey requestHash)
      (fun _ _ => True)
      (some { applicationId := request.applicationId, idempotencyKey, requestHash }) := by
  have hguarded := Only.attempt (orchestrator.only_invokeUncached request)
  refine Spec.bind (spec_aside hguarded _) (fun outcome held hheld => ?_) fun _ _ _ => trivial
  subst hheld
  split
  · exact Spec.performBind ⟨requestHash, rfl⟩ (fun _ _ => trivial) fun _ _ => trivial
  · refine Spec.performBind trivial (fun policy _ => ?_) fun _ _ => trivial
    exact Spec.performBind rfl (fun _ _ => trivial) fun _ _ => trivial

/-- **`invoke` keeps the protocol.** -/
theorem spec_invoke_protocol :
    Spec reservationProtocol (orchestrator.invoke request) (fun _ _ => True) none := by
  have huncached : Spec reservationProtocol (orchestrator.invokeUncached request) (fun _ _ =>
      True) none :=
    (spec_aside (orchestrator.only_invokeUncached request) none).mono fun _ _ _ => trivial
  unfold invoke
  split
  · exact huncached
  · split
    · refine Spec.ofExceptBind (fun requestHash _ => ?_) fun _ _ => trivial
      refine Spec.performBind rfl (fun reservation _ => ?_) fun _ _ => trivial
      split
      · trivial
      · trivial
      · split <;> trivial
      · rename_i hnew
        rw [next_reserve, if_pos hnew]
        exact spec_invokeReserved_protocol _ _
    · exact huncached

end InvocationOrchestrator

end ModelRouter
