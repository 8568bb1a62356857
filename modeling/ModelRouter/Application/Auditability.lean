import ModelRouter.Adapters.InMemoryDecisionRepository
import ModelRouter.Application.MutualExclusion
import ModelRouter.Lib.Registry

/-!
# Auditability

A use case draws an identifier for its decision, saves the audit record under it and only then
returns the result, or completes its reservation with it: it keeps to the registry of audit records
(`spec_invoke_auditing`). The store replays what a reservation was completed with.
-/

namespace ModelRouter
open Effects Prog RouteEvaluationService

/-- What is saved of a result. -/
def InferenceResult.auditRecord (result : InferenceResult) : AuditRecord :=
  { decision := result.decision, invocationAttempts := result.invocationAttempts }

/-! ## The registry of a use case -/

/-- A reservation that is answered with a result. -/
def IdempotencyReservation.replay (reservation : IdempotencyReservation) :
    Option (Filing String AuditRecord) :=
  if reservation.outcome = .completed
    then reservation.cachedResult.map fun result => .replay result.auditRecord else none

theorem IdempotencyReservation.replay_eq_some {reservation : IdempotencyReservation}
    {filing : Filing String AuditRecord}
    (h : reservation.replay = some filing) : ∃ auditRecord, filing = .replay auditRecord := by
  unfold replay at h
  split at h
  · obtain ⟨result, -, rfl⟩ := Option.map_eq_some_iff.mp h
    exact ⟨result.auditRecord, rfl⟩
  · cases h

abbrev AuditPhase : Type := Registry.Phase String AuditRecord

def auditing : Registry Ports String AuditRecord where
  name auditRecord := auditRecord.decision.decisionId
  filing
    | ⟨.newId _, .ok decisionId⟩ => some (.draw decisionId)
    | ⟨.save auditRecord, .ok _⟩ => some (.file auditRecord)
    | ⟨.complete _ _ _ result _ _, .ok _⟩ => some (.keep result.auditRecord)
    | ⟨.reserve _ _ _, .ok reservation⟩ => reservation.replay
    | _ => none

/-- The ports that the registry is about. -/
def FilingPort : Port → Prop
  | .newId _ | .save _ | .complete _ _ _ _ _ _ | .reserve _ _ _ => True
  | _ => False

theorem aside_of_not_filing (port : Port) (h : ¬ FilingPort port) : auditing.Aside port := by
  intro reply
  cases port with
  | newId | save | complete | reserve => exact absurd trivial h
  | _ => rfl

/-- A decision has the identifier that was drawn. -/
def Drawn (out : Except PyException RoutingDecision) (phase : AuditPhase) : Prop :=
  ∀ decision, out = .ok decision → phase.own = .drawn decision.decisionId

/-- A result of the use case is vouched for: it was saved, or replayed. -/
def VouchedFor (out : Except PyException InferenceResult) (phase : AuditPhase) : Prop :=
  ∀ result, out = .ok result → Registry.Vouched phase result.auditRecord

/-- A result of the use case has been saved. -/
def Saved (out : Except PyException InferenceResult) (phase : AuditPhase) : Prop :=
  ∀ result, out = .ok result → phase.own = .filed result.auditRecord

theorem drawn_error {x : PyException} {phase : AuditPhase} : Drawn (.error x) phase :=
  fun _ h => by cases h

theorem vouchedFor_error {x : PyException} {phase : AuditPhase} : VouchedFor (.error x) phase :=
  fun _ h => by cases h

theorem saved_error {x : PyException} {phase : AuditPhase} : Saved (.error x) phase :=
  fun _ h => by cases h

section UseCase
variable {orchestrator : InvocationOrchestrator} {request : InferenceRequest} {phase : AuditPhase}

theorem spec_buildDecision {policy : RoutingPolicy} {selection : RouteSelection}
    {candidates : List RouteCandidate} {reasonCodes : List RoutingReasonCode} (phase : AuditPhase) :
    Spec auditing.monitor (buildDecision request policy selection candidates reasonCodes) Drawn
      phase := by
  refine Spec.performBind (fun reply => ?_) (fun decisionId _ => ?_) fun _ _ => drawn_error
  · cases reply <;> trivial
  · refine Spec.performBind (fun _ => trivial) (fun createdAt _ => ?_) fun _ _ => drawn_error
    intro decision hdecision
    cases hdecision
    rfl

/-- An evaluation draws the identifier of its decision. -/
theorem spec_evaluate_auditing (service : RouteEvaluationService) (phase : AuditPhase) :
    Spec auditing.monitor (service.evaluate request) Drawn phase := by
  have hcandidates : ∀ requirements policy messages models phase,
      Spec auditing.monitor (service.buildRouteCandidates requirements policy messages models)
        (fun _ _ => True) phase := by
    intro requirements policy messages models phase
    refine (service.only_buildRouteCandidates requirements policy messages models).trivial_spec
      fun phase port hport => ?_
    cases port with
    | newId kind =>
        intro reply
        cases reply <;> trivial
    | resolve | getHealth | now => exact fun _ => trivial
    | _ => exact hport.elim
  refine Spec.performBind (fun _ => trivial) (fun policy _ => ?_) fun _ _ => drawn_error
  dsimp only
  split
  · exact spec_buildDecision _
  · split
    · exact spec_buildDecision _
    · refine Spec.bind (hcandidates _ _ _ _ _) (fun candidates phase _ => ?_) fun _ _ _ =>
        drawn_error
      exact Spec.ofExceptBind (fun _ _ => spec_buildDecision phase) fun _ _ => drawn_error

theorem spec_record_auditing (hrepository : orchestrator.hasDecisionRepository = true)
    (result : InferenceResult) (hown : phase.own = .drawn result.decision.decisionId) :
    Spec auditing.monitor (orchestrator.record result) Saved phase := by
  have hmetrics : Only (fun port => ¬ FilingPort port) (orchestrator.publishMetrics result) := by
    refine (orchestrator.only_publishMetrics result).mono ?_
    rintro port rfl
    exact id
  have hevent : Only (fun port => ¬ FilingPort port)
      (orchestrator.publishDecisionEvent result) := by
    refine (orchestrator.only_publishDecisionEvent result).mono ?_
    rintro port rfl
    exact id
  unfold InvocationOrchestrator.record InvocationOrchestrator.persist
  rw [if_pos hrepository]
  refine Spec.performBind (fun reply => ?_) (fun _ _ => ?_) fun _ _ => saved_error
  · cases reply with
    | ok _ => exact hown
    | error x => trivial
  · refine Spec.bind (Registry.spec_aside hmetrics aside_of_not_filing _) (fun _ phase' h =>
      ?_) fun _ _ _ => saved_error
    subst h
    refine Spec.bind (Registry.spec_aside hevent aside_of_not_filing _) (fun _ phase' h =>
      ?_) fun _ _ _ => saved_error
    subst h
    intro result' hresult'
    cases hresult'
    rfl

theorem aggregateDecision_decisionId {original final : RoutingDecision}
    {succeededAlias : Option String} {extraReasonCodes : List RoutingReasonCode}
    (h : InvocationOrchestrator.aggregateDecision original succeededAlias extraReasonCodes =
      .ok final) :
    final.decisionId = original.decisionId := by
  unfold InvocationOrchestrator.aggregateDecision at h
  dsimp only at h
  split at h
  · cases h
    rfl
  · split at h
    · cases h
    · cases h
      rfl

theorem spec_invokeUncached_auditing (hrepository : orchestrator.hasDecisionRepository = true)
    (phase : AuditPhase) :
    Spec auditing.monitor (orchestrator.invokeUncached request) Saved phase := by
  refine Spec.bind (spec_evaluate_auditing _ phase) (fun decision phase hdrawn => ?_) fun _ _ _ =>
    saved_error
  refine Spec.performBind (fun _ => trivial) (fun policy _ => ?_) fun _ _ => saved_error
  unfold InvocationOrchestrator.invokeDecision
  dsimp only
  split
  · exact spec_record_auditing hrepository _ (hdrawn decision rfl)
  · have hloop : ∀ effective chain st,
        Only (fun port => ¬ FilingPort port)
          (orchestrator.attemptChain request decision effective chain st) := by
      intro effective chain st
      refine (orchestrator.only_attemptChain request decision effective chain st).mono fun port h =>
        ?_
      cases port <;> first | exact id | exact h.elim
    refine Spec.bind (Registry.spec_aside (hloop _ _ _) aside_of_not_filing _)
      (fun st phase' h => ?_)
      fun _ _ _ => saved_error
    subst h
    refine Spec.ofExceptBind (fun final hfinal => ?_) fun _ _ => saved_error
    refine spec_record_auditing hrepository _ ?_
    show _ = Registry.Own.drawn final.decisionId
    rw [aggregateDecision_decisionId hfinal]
    exact hdrawn decision rfl

theorem spec_invokeReserved_auditing (hrepository : orchestrator.hasDecisionRepository = true)
    (idempotencyKey requestHash : String) (phase : AuditPhase) :
    Spec auditing.monitor (orchestrator.invokeReserved request idempotencyKey requestHash) Saved
      phase := by
  have huncached : Spec auditing.monitor (orchestrator.invokeUncached request).attempt
      (fun out phase => ∀ outcome, out = .ok outcome → Saved outcome phase) phase := by
    refine Spec.attempt ((spec_invokeUncached_auditing hrepository phase).mono
      fun out phase' hsaved outcome h => ?_)
    cases h
    exact hsaved
  refine Spec.bind huncached (fun outcome phase' hsaved => ?_) fun _ _ _ => saved_error
  split
  · exact Spec.performBind (fun _ => trivial) (fun _ _ => saved_error) fun _ _ => saved_error
  · rename_i result
    refine Spec.performBind (fun _ => trivial) (fun policy _ => ?_) fun _ _ => saved_error
    refine Spec.performBind (fun reply => ?_) (fun _ _ => ?_) fun _ _ => saved_error
    · cases reply with
      | ok _ => exact hsaved _ rfl result rfl
      | error x => trivial
    · intro result' hresult'
      cases hresult'
      exact hsaved _ rfl result rfl

/-- **A result of `invoke` has been saved or replayed.** -/
theorem spec_invoke_auditing (hrepository : orchestrator.hasDecisionRepository = true) :
    Spec auditing.monitor (orchestrator.invoke request) VouchedFor {} := by
  have hsaved : ∀ {p : Prog Ports InferenceResult} {phase : AuditPhase},
      Spec auditing.monitor p Saved phase →
      Spec auditing.monitor p VouchedFor phase :=
    fun h => h.mono fun out phase' hsaved result hresult => Or.inl (hsaved result hresult)
  unfold InvocationOrchestrator.invoke
  split
  · exact hsaved (spec_invokeUncached_auditing hrepository _)
  · split
    · refine Spec.ofExceptBind (fun requestHash _ => ?_) fun _ _ => vouchedFor_error
      refine Spec.performBind (fun reply => ?_) (fun reservation _ => ?_) fun _ _ =>
        vouchedFor_error
      · cases reply with
        | ok reservation =>
            show Registry.Phase.Allows _ _ reservation.replay
            exact Registry.Phase.allows_replay (fun _ => IdempotencyReservation.replay_eq_some) _ _
        | error x => trivial
      · split
        · exact vouchedFor_error
        · exact vouchedFor_error
        · rename_i hcompleted
          split
          · exact vouchedFor_error
          · rename_i result hcached
            intro result' hresult'
            cases hresult'
            refine Or.inr ?_
            show result.auditRecord ∈ (Registry.Phase.after _ reservation.replay).replayed
            rw [IdempotencyReservation.replay, if_pos hcompleted, hcached]
            exact List.mem_cons_self
        · exact hsaved (spec_invokeReserved_auditing hrepository _ _ _)
    · exact hsaved (spec_invokeUncached_auditing hrepository _)

end UseCase

/-! ## The repository -/

/-- The repository after a log of calls. -/
def repositoryAfter {S : Sig} {σ ι : Type} (registry : Registry S String AuditRecord) :
    List (Entry S σ ι) → InMemoryRoutingDecisionRepository
  | [] => {}
  | entry :: log => match registry.filing entry.event with
    | some (.file auditRecord) => (repositoryAfter registry log).save auditRecord
    | _ => repositoryAfter registry log

theorem get_repositoryAfter {S : Sig} {σ ι : Type} {registry : Registry S String AuditRecord}
    (hname : ∀ auditRecord, registry.name auditRecord = auditRecord.decision.decisionId)
    (log : List (Entry S σ ι)) :
    (repositoryAfter registry log).get = registry.contents log := by
  induction log with
  | nil => rfl
  | cons entry log ih =>
      cases hfiling : registry.filing entry.event with
      | none =>
          simp only [repositoryAfter, Registry.contents, hfiling]
          exact ih
      | some filing =>
          cases filing with
          | file auditRecord =>
              simp only [repositoryAfter, Registry.contents, hfiling]
              rw [← ih, hname]
              rfl
          | _ =>
              simp only [repositoryAfter, Registry.contents, hfiling]
              exact ih

section Runs
variable {ι : Type} [DecidableEq ι] {orchestrators : ι → InvocationOrchestrator}
  {requests : ι → InferenceRequest} {now : Int}

/-! ## In memory -/

section InMemory
variable {staleReservation : Int} {s s₀ : SharedStore} {log : List (Entry Ports SharedStore ι)}
  {G : SharedStore → List (Entry Ports SharedStore ι) → Prop}
  {c : Config Ports SharedStore ι InferenceResult}

theorem faithful_inMemory (hempty : s₀.store.records = fun _ => none)
    (h : storeMachine.Lawful reservationProtocol none G s₀ s log) : auditing.Faithful log := by
  induction h with
  | init => trivial
  | tick _ _ _ ih => exact ih
  | @call s s' log i port reply h _ hact _ ih =>
      refine ⟨fun auditRecord hreplay => ?_, ih⟩
      cases port with
      | reserve applicationId idempotencyKey requestHash =>
          cases reply with
          | error x => cases hreplay
          | ok reservation =>
              change reservation.replay = _ at hreplay
              unfold IdempotencyReservation.replay at hreplay
              split at hreplay
              · rename_i hcompleted
                obtain ⟨result, retentionSeconds, completing, hlast, hresult, -, -⟩ :=
                  SharedStore.replayed hempty h hact hcompleted
                rw [hresult] at hreplay
                cases hreplay
                obtain ⟨between, before, rfl, -, -⟩ := hlast.latest
                refine ⟨completing, by simp, ?_⟩
                rw [hlast.event]
                rfl
              · cases hreplay
      | newId | save | complete => cases reply <;> cases hreplay
      | _ => cases hreplay

theorem auditable_inMemory (hrepository : ∀ i, (orchestrators i).hasDecisionRepository = true)
    (h : storeMachine.Reachable G (SharedStore.start orchestrators requests staleReservation now) c)
    (hnames : (auditing.names c.log).Nodup) {i : ι} {result : InferenceResult}
    (hreturned : c.threads i = .ret result) :
    (repositoryAfter auditing c.log).get result.decision.decisionId = some result.auditRecord := by
  have hspec : ∀ i, Spec auditing.monitor
      ((SharedStore.start orchestrators requests staleReservation now).threads i)
      VouchedFor {} := fun i => spec_invoke_auditing (hrepository i)
  obtain ⟨hlawful, hthreads⟩ := h.lawful rfl hspec fun _ _ _ _ _ _ _ _ _ => trivial
  have hkempt := Registry.kempt hlawful hnames (faithful_inMemory rfl (SharedStore.lawful_invoke h))
  have hthread := hthreads i
  rw [hreturned] at hthread
  rw [get_repositoryAfter fun _ => rfl]
  exact hkempt.onFile (hthread result rfl)

end InMemory

end Runs

end ModelRouter
