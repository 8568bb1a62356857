import ModelRouter.Adapters.DynamoDbDecisionRepository
import ModelRouter.Application.TableAuditability
import ModelRouter.Handlers.Dispatching

/-!
# The deployed router

Events are dispatched over the two tables: each thread runs `dispatch` for one event, with its
idempotency store and its decision repository carried out on the tables that all threads share. A
look-up in either table is eventually consistent: it answers any version of the item. Expired items
are deleted at any time.

* `deployedMachine` : the tables;
* `HandlerServices.Touches` : the operations that an event may set off;
* `spec_overTables` : an event sets off no others, and what is served has been saved or replayed,
  for its request.
-/

namespace ModelRouter
open Effects Prog HandlerServices InvocationOrchestrator DynamoDbIdempotencyStore
  DynamoDbRoutingDecisionRepository

/-! ## The tables -/

inductive DeployedCall where
  | backend (call : BackendCall)
  | decisions (call : DecisionCall)

@[reducible] def DeployedCall.Answer : DeployedCall → Type
  | .backend operation => operation.Answer
  | .decisions operation => operation.Answer

abbrev Deployed : Sig := { Call := DeployedCall, Answer := DeployedCall.Answer, Exc := PyException }

/-- `earlier` is what an item of the idempotency table was before, `versions` what an item of the
decisions' table has been, the last first. -/
structure DeployedState where
  idempotency : TableState
  earlier : String × String → List (Option Item) := fun _ => []
  versions : String → List (Option DecisionItem) := fun _ => []

namespace DeployedState

/-- What a look-up in the idempotency table may answer. -/
def seen (s : DeployedState) (key : String × String) : List (Option Item) :=
  s.idempotency.table key :: s.earlier key

def current (s : DeployedState) (decisionId : String) : Option DecisionItem :=
  (s.versions decisionId).head?.join

def write (s : DeployedState) (decisionId : String) (version : Option DecisionItem) :
    DeployedState :=
  { s with versions := Function.update s.versions decisionId (version :: s.versions decisionId) }

def seconds (s : DeployedState) : Int := wholeSeconds s.idempotency.now

@[simp] theorem versions_write_self (s : DeployedState) (decisionId : String)
    (version : Option DecisionItem) :
    (s.write decisionId version).versions decisionId = version :: s.versions decisionId :=
      Function.update_self ..

theorem versions_write_of_ne {decisionId decisionId' : String} (h : decisionId' ≠ decisionId)
    (s : DeployedState) (version : Option DecisionItem) :
      (s.write decisionId version).versions decisionId' = s.versions decisionId' :=
  Function.update_of_ne h ..

end DeployedState

/-- The clock gives a `datetime`, whose year has four digits. -/
def Dated : (call : BackendCall) → Except PyException call.Answer → Prop
  | .ofPort .now, .ok t => Calendar.FourDigits t
  | _, _ => True

/-- An operation is carried out, or fails without an effect; every other port may answer anything. A
look-up answers any version of the item. -/
def deployedMachine : Machine Deployed DeployedState where
  act s call reply s' := match call with
    | .backend (.getItem pk sk) =>
      ((∃ version ∈ s.seen (pk, sk), reply = .ok version) ∨ Failed reply) ∧ s' = s
    | .backend call => tableMachine.act s.idempotency call reply s'.idempotency ∧ s'.earlier = s.seen ∧
      s'.versions = s.versions ∧ Dated call reply
    | .decisions .clockSeconds => reply = .ok s.idempotency.now ∧ s' = s
    | .decisions (.putItem item) =>
      reply = .ok () ∧ s' = s.write item.decisionId (some item) ∨ Failed reply ∧ s' = s
    | .decisions (.getItem decisionId) =>
      ((∃ version, reply = .ok version ∧ (version = none ∨ version ∈ s.versions decisionId)) ∨
        Failed reply) ∧
        s' = s
  tick s s' := s.idempotency.now ≤ s'.idempotency.now ∧ s'.earlier = s.seen ∧
    (∀ key, s'.idempotency.table key = s.idempotency.table key ∨ s'.idempotency.table key = none ∧
      ∃ item, s.idempotency.table key = some item ∧ item.expiresAt < s'.seconds) ∧
    ∀ decisionId, s'.versions decisionId = s.versions decisionId ∨
      s'.versions decisionId = none :: s.versions decisionId ∧
        ∃ item, s.current decisionId = some item ∧ item.expiresAt < s'.seconds

/-! ## Programs over the tables -/

def onBackend {α : Type} (p : Prog Backend α) : Prog Deployed α :=
  @Prog.interpret Backend α Deployed id (fun call => @Prog.tryPerform Deployed (.backend call)) p

def onDecisions {α : Type} (p : Prog Decisions α) : Prog Deployed α :=
  @Prog.interpret Decisions α Deployed id (fun call =>
    @Prog.tryPerform Deployed (.decisions call)) p

/-- The store and the repository carry out their ports, the others are left. -/
def carryOutTables (store : DynamoDbIdempotencyStore)
    (repository : DynamoDbRoutingDecisionRepository) :
    (port : ApiPort) → Prog Deployed (Except PyException port.Answer)
  | .ofPort (.save auditRecord) => onDecisions (repository.save auditRecord).attempt
  | .ofPort port => onBackend (store.carryOut port)
  | .getDecision decisionId => onDecisions (repository.get decisionId).attempt

def overTables (store : DynamoDbIdempotencyStore) (repository : DynamoDbRoutingDecisionRepository)
    {α : Type} (p : Prog ApiPorts α) : Prog Deployed α :=
  @Prog.interpret ApiPorts α Deployed id (carryOutTables store repository) p

/-! ## The operations of an event -/

/-- A completed item holds a result that is made for the item's application. -/
def HoldsResult (store : DynamoDbIdempotencyStore) (item : Item) : Prop :=
  item.status = .completed →
  ∃ result, item.result = some (store.modelDumpJson result) ∧ result.decision.MadeFor item.pk

namespace HandlerServices

variable (services : HandlerServices) (store : DynamoDbIdempotencyStore)
  (repository : DynamoDbRoutingDecisionRepository) (event : ProxyEvent)

/-- The event is an inference of the request. -/
def Infers (request : InferenceRequest) : Prop :=
  services.received event = some request ∧ event.route = some .inference

/-- The operations of the idempotency table concern the item of the event's request. -/
def TouchesBackend : BackendCall → Prop
  | .ofPort port =>
      services.Permits event (.ofPort port) ∧ ¬ StorePort port ∧
      ∀ auditRecord, port ≠ .save auditRecord
  | .clockSeconds => ∃ request idempotencyKey, services.Infers event request ∧
    request.idempotencyKey = some idempotencyKey
  | .putItem item condition => ∃ request, services.Infers event request ∧ item.pk = request.applicationId ∧
    request.idempotencyKey = some item.sk ∧ services.requestHash request = .ok item.requestHash ∧
    (condition ≠ none → item.status = .inProgress) ∧ HoldsResult store item
  | .getItem pk sk | .deleteItem pk sk => ∃ request, services.Infers event request ∧ pk = request.applicationId ∧
    request.idempotencyKey = some sk

/-- What is put is the record of a decision that is made for the event's request. -/
def TouchesDecisions : DecisionCall → Prop
  | .clockSeconds => ∃ request, services.Infers event request
  | .putItem item => ∃ request, services.Infers event request ∧ item.applicationId = request.applicationId ∧
    ∃ auditRecord : AuditRecord, auditRecord.decision.MadeFor request.applicationId ∧
      item.decisionId = auditRecord.decision.decisionId ∧
      item.record = repository.modelDumpJson auditRecord
  | .getItem decisionId => services.Permits event (.getDecision decisionId)

/-- The operations that an event may set off. -/
def Touches : DeployedCall → Prop
  | .backend operation => services.TouchesBackend store event operation
  | .decisions operation => services.TouchesDecisions repository event operation

end HandlerServices

/-- What the clock and the idempotency table promise. -/
def Vowed (store : DynamoDbIdempotencyStore) :
    (operation : BackendCall) → Except PyException operation.Answer → Prop
  | .ofPort port, reply => Dated (.ofPort port) reply
  | .getItem pk _, .ok (some item) => item.pk = pk ∧ HoldsResult store item
  | _, _ => True

def DeployedVowed (store : DynamoDbIdempotencyStore) :
    (operation : DeployedCall) → Except PyException operation.Answer → Prop
  | .backend operation, reply => Vowed store operation reply
  | .decisions _, _ => True

theorem promised_of_dated {port : Port} {reply : Except PyException port.Answer}
    (hport : ¬ StorePort port) (h : Dated (.ofPort port) reply) : port.Promised reply := by
  cases port with
  | now => cases reply <;> exact h
  | reserve => exact absurd trivial hport
  | _ => trivial

/-! ## What a reservation is answered with -/

namespace DynamoDbIdempotencyStore

/-- The item answers a reservation with the result. -/
def Item.Replays (store : DynamoDbIdempotencyStore) (item : Item) (result : InferenceResult) :
    Prop :=
  item.status = .completed ∧ ∃ json, item.result = some json ∧
    store.modelValidateJson json = .ok result

section
variable {store : DynamoDbIdempotencyStore} {applicationId idempotencyKey requestHash : String}

theorem answerItem_replays {item : Item} {reservation : IdempotencyReservation}
    {result : InferenceResult} (h : store.answerItem requestHash item = .ok reservation)
    (hcompleted : reservation.outcome = .completed)
    (hcached : reservation.cachedResult = some result) : item.Replays store result := by
  unfold answerItem at h
  split at h
  · cases h
    cases hcompleted
  · split at h
    · cases h
      cases hcompleted
    · rename_i hstatus
      split at h
      · cases h
      · rename_i json hjson
        obtain ⟨cachedResult, hread, hanswer⟩ := Outcome.bind_ok h
        obtain rfl := Except.ok.inj hanswer
        obtain rfl := Option.some.inj hcached
        exact ⟨hstatus, json, hjson, hread⟩

/-- **A reservation is answered with the result of an item that it has looked up**, by operations
that the observer does not mind. -/
theorem spec_reserve_replays {σ : Type} {M : Monitor Backend σ} {s : σ} {F : Item → Prop}
    (howes : ∀ operation, ReservingCall store applicationId idempotencyKey requestHash operation →
      M.owes s operation ∧ ∀ reply, M.next s operation reply = s)
    (hrelies : ∀ item, M.relies s (.getItem applicationId idempotencyKey) (.ok (some item)) →
      F item) :
    Spec M (store.reserve applicationId idempotencyKey requestHash) (fun out s' => s' = s ∧
      ∀ reservation result, out = .ok reservation → reservation.outcome = .completed →
        reservation.cachedResult = some result → ∃ item, F item ∧ item.Replays store result) s := by
  let Answered (reservation : IdempotencyReservation) (_ : σ) : Prop :=
    ∀ result, reservation.outcome = .completed → reservation.cachedResult = some result →
      ∃ item, F item ∧ item.Replays store result
  have hcall : Undisturbed store applicationId idempotencyKey requestHash M (· = s) := by
    rintro _ operation rfl hreserving
    exact howes operation hreserving
  have hfound : ∀ s₁ item reservation, s₁ = s →
      M.relies s₁ (.getItem applicationId idempotencyKey) (.ok (some item)) →
      store.answerItem requestHash item = .ok reservation → Answered reservation s := by
    rintro _ item reservation rfl hfound hanswer result hcompleted hcached
    exact ⟨item, hrelies item hfound, answerItem_replays hanswer hcompleted hcached⟩
  have hreserve := spec_reserve_observed (A := Answered) hcall
    (fun _ _ _ hcompleted => by cases hcompleted) hfound rfl
  exact hreserve.mono fun out s' h =>
    ⟨h.1, fun reservation result hout => h.2 reservation hout result⟩

end

end DynamoDbIdempotencyStore

section Store
variable {services : HandlerServices} {event : ProxyEvent} {request : InferenceRequest}
  {idempotencyKey requestHash : String} {store : DynamoDbIdempotencyStore}

abbrev backendMonitor (services : HandlerServices) (store : DynamoDbIdempotencyStore)
    (event : ProxyEvent) :
    Monitor Backend Unit := .stateless (services.TouchesBackend store event) (Vowed store)

theorem replays_held (hreads : store.ReadsBack) {item : Item} {result : InferenceResult}
    (hholds : HoldsResult store item) (h : item.Replays store result) :
    item.result = some (store.modelDumpJson result) ∧ result.decision.MadeFor item.pk := by
  obtain ⟨hcompleted, json, hjson, hread⟩ := h
  obtain ⟨held, hresult, hmade⟩ := hholds hcompleted
  rw [hresult] at hjson
  obtain rfl := Option.some.inj hjson
  obtain rfl := hreads.same held result hread
  exact ⟨hresult, hmade⟩

variable (hinfers : services.Infers event request)
  (hkey : request.idempotencyKey = some idempotencyKey)
  (hhash : services.requestHash request = .ok requestHash)
include hinfers hkey hhash

theorem spec_reserve_touches (hreads : store.ReadsBack) :
    Spec (backendMonitor services store event)
      (store.reserve request.applicationId idempotencyKey requestHash)
      (fun out _ => Port.Promised (.reserve request.applicationId idempotencyKey requestHash) out)
        () := by
  refine (spec_reserve_replays (M := backendMonitor services store event)
    (F := fun item => item.pk = request.applicationId ∧ HoldsResult store item)
    (fun operation hreserving => ⟨?_, fun _ => rfl⟩) fun item hvowed =>
      hvowed).mono fun out _ h => ?_
  · cases operation with
    | clockSeconds => exact ⟨request, idempotencyKey, hinfers, hkey⟩
    | putItem item condition =>
        obtain ⟨now, rfl, rfl⟩ := hreserving
        exact ⟨request, hinfers, rfl, hkey, hhash, fun _ => rfl, fun h => by cases h⟩
    | getItem pk sk =>
        obtain ⟨rfl, rfl⟩ := hreserving
        exact ⟨request, hinfers, rfl, hkey⟩
    | _ => exact hreserving.elim
  · cases out with
    | error x => trivial
    | ok reservation =>
        intro result hcompleted hcached
        obtain ⟨item, ⟨hpk, hholds⟩, hreplays⟩ := h.2 reservation result rfl hcompleted hcached
        rw [← hpk]
        exact (replays_held hreads hholds hreplays).2

theorem spec_complete_touches {result : InferenceResult}
    (hmade : result.decision.MadeFor request.applicationId)
    (cacheResult : Bool) (retentionSeconds : Nat) :
    Spec (backendMonitor services store event)
      (store.complete request.applicationId idempotencyKey requestHash
      result cacheResult retentionSeconds) (fun _ _ => True) () := by
  unfold complete
  split
  · exact Spec.perform ⟨request, hinfers, rfl, hkey⟩ fun _ _ => trivial
  · refine Spec.performBind ⟨request, idempotencyKey, hinfers, hkey⟩ (fun clock _ => ?_) fun _ _ =>
      trivial
    exact Spec.perform ⟨request, hinfers, rfl, hkey, hhash, fun h => absurd rfl h,
      fun _ => ⟨result, rfl, hmade⟩⟩ fun _ _ => trivial

end Store

/-! ## Ports over the tables -/

theorem spec_onBackend {σ α : Type} {M : Monitor Backend σ} {N : Monitor Deployed σ}
    {p : Prog Backend α} {Q : Except PyException α → σ → Prop} {s : σ} (h : Spec M p Q s)
    (howes : ∀ s operation, M.owes s operation → N.owes s (.backend operation))
    (hrelies : ∀ s (operation : BackendCall) (r : Except PyException operation.Answer),
      N.relies s (.backend operation) r → M.relies s operation r)
    (hnext : ∀ s (operation : BackendCall) (r : Except PyException operation.Answer),
      N.next s (.backend operation) r = M.next s operation r) : Spec N (onBackend p) Q s := by
  induction p generalizing s with
  | ret a => exact h
  | raise x => exact h
  | call operation k ih =>
      refine ⟨howes s operation h.1, fun r hr => ?_⟩
      rw [hnext]
      exact ih r (h.2 r (hrelies s operation r hr))

/-- What a look-up finds, from the reply of the table. -/
def DynamoDbRoutingDecisionRepository.found (repository : DynamoDbRoutingDecisionRepository) :
    Except PyException (Option DecisionItem) → Except PyException (Option AuditRecord)
  | .ok (some item) => (repository.readItem item).map some
  | .ok none => .ok none
  | .error x => .error x

theorem onDecisions_get (repository : DynamoDbRoutingDecisionRepository) (decisionId : String) :
    onDecisions (repository.get decisionId).attempt =
      @Prog.call Deployed _ (.decisions (.getItem decisionId))
      fun reply => ret (repository.found reply) := by
  show @Prog.call Deployed _ (.decisions (.getItem decisionId)) _ = _
  congr 1
  funext reply
  cases reply with
  | error x => rfl
  | ok version =>
      cases version with
      | none => rfl
      | some item =>
          show onDecisions (Prog.ofExcept (repository.readItem item) >>= fun auditRecord =>
              ret (some auditRecord)).attempt =
            ret ((repository.readItem item).map some)
          cases repository.readItem item <;> rfl

section Ports
variable {services : HandlerServices} {event : ProxyEvent} {store : DynamoDbIdempotencyStore}
  {repository : DynamoDbRoutingDecisionRepository}

abbrev touching (services : HandlerServices) (store : DynamoDbIdempotencyStore)
    (repository : DynamoDbRoutingDecisionRepository) (event : ProxyEvent) : Monitor Deployed Unit :=
  .stateless (services.Touches store repository event) (DeployedVowed store)

theorem infers_of_permits {port : Port} (h : services.Permits event (.ofPort port))
    (hport : StorePort port ∨
    ∃ auditRecord, port = .save auditRecord) : ∃ request, services.Infers event request ∧
      request.Concerns (services.requestHash request) port := by
  obtain ⟨request, hreceived, ⟨hroute, hconcerns⟩ | ⟨-, hconcerns⟩⟩ := h
  · exact ⟨request, ⟨hreceived, hroute⟩, hconcerns⟩
  · rcases hport with hport | ⟨auditRecord, rfl⟩
    · cases port <;> first | exact hport.elim | exact hconcerns.elim
    · exact hconcerns.elim

theorem spec_touches {α : Type} {p : Prog Backend α} {Q : Except PyException α → Unit → Prop}
    (h : Spec (backendMonitor services store event) p Q ()) :
    Spec (touching services store repository event) (onBackend p) Q () :=
  spec_onBackend h (fun _ _ => id) (fun _ _ _ => id) fun _ _ _ => rfl

/-- **The tables carry a permitted port out by operations that the event may set off.** -/
theorem spec_carryOutTables_touches (hreads : store.ReadsBack) (port : ApiPort)
    (hpermits : services.Permits event port) :
    Spec (touching services store repository event) (carryOutTables store repository port)
      (fun out _ => ∃ reply, out = .ok reply ∧ port.Promised reply) () := by
  have hother : ∀ port, services.Permits event (.ofPort port) → ¬ StorePort port →
      (∀ auditRecord, port ≠ .save auditRecord) →
      Spec (touching services store repository event) (onBackend (tryRequest (.ofPort port)))
        (fun out _ => ∃ reply, out = .ok reply ∧ port.Promised reply) () := by
    intro port hpermits hstore hsave
    refine spec_touches ⟨⟨hpermits, hstore, hsave⟩, fun reply hvowed =>
      ⟨reply, rfl, promised_of_dated hstore hvowed⟩⟩
  cases port with
  | getDecision decisionId =>
      show Spec _ (onDecisions (repository.get decisionId).attempt) _ _
      rw [onDecisions_get]
      exact ⟨hpermits, fun reply _ => ⟨_, rfl, trivial⟩⟩
  | ofPort port =>
      cases port with
      | save auditRecord =>
          obtain ⟨request, hinfers, hmade⟩ := infers_of_permits hpermits (Or.inr ⟨auditRecord, rfl⟩)
          refine ⟨⟨request, hinfers⟩, fun clock _ => ?_⟩
          cases clock with
          | error x => exact ⟨_, rfl, trivial⟩
          | ok clock =>
              refine ⟨⟨request, hinfers, hmade.applicationId, auditRecord, hmade, rfl, rfl⟩,
                fun reply _ => ?_⟩
              cases reply <;> exact ⟨_, rfl, trivial⟩
      | reserve applicationId idempotencyKey requestHash =>
          obtain ⟨request, hinfers, rfl, hkey, hhash⟩ := infers_of_permits hpermits (Or.inl trivial)
          have hreserve := spec_reserve_touches hinfers hkey hhash hreads
          exact spec_touches (Spec.attempt (hreserve.mono fun out _ h => ⟨out, rfl, h⟩))
      | complete applicationId idempotencyKey requestHash result cacheResult retentionSeconds =>
          obtain ⟨request, hinfers, ⟨rfl, hkey, hhash⟩, hmade⟩ :=
            infers_of_permits hpermits (Or.inl trivial)
          refine spec_touches (Spec.attempt
            ((spec_complete_touches hinfers hkey hhash hmade _ _).mono
            fun out _ _ => ?_))
          exact ⟨out, rfl, trivial⟩
      | release applicationId idempotencyKey =>
          obtain ⟨request, hinfers, rfl, hkey⟩ := infers_of_permits hpermits (Or.inl trivial)
          have hrelease : Spec (backendMonitor services store event)
              (DynamoDbIdempotencyStore.release request.applicationId idempotencyKey) (fun _ _ =>
                True) () :=
            Spec.perform ⟨request, hinfers, rfl, hkey⟩ fun _ _ => trivial
          exact spec_touches (Spec.attempt (hrelease.mono fun out _ _ => ⟨out, rfl, trivial⟩))
      | _ => exact hother _ hpermits id (by rintro auditRecord ⟨⟩)

/-! ## The registry of the decisions -/

/-- A record is filed where it is put into the decisions' table. -/
def deployedAuditing (store : DynamoDbIdempotencyStore)
    (repository : DynamoDbRoutingDecisionRepository) :
    Registry Deployed String AuditRecord where
  name auditRecord := auditRecord.decision.decisionId
  filing
    | ⟨.backend operation, reply⟩ => (tableAuditing store).filing ⟨operation, reply⟩
    | ⟨.decisions (.putItem item), .ok _⟩ => (repository.readItem item).toOption.map .file
    | _ => none

theorem roundTrips_of_readsBack (hreads : store.ReadsBack) : store.RoundTrips :=
  fun result result' hread =>
    congrArg InferenceResult.auditRecord (hreads.same result result' hread)

theorem readItem_savedItem (hreads : repository.ReadsBack) {auditRecord : AuditRecord}
    {item : DecisionItem} (hrecord : item.record = repository.modelDumpJson auditRecord)
    (hyear : Calendar.FourDigits auditRecord.decision.createdAt) :
      repository.readItem item = .ok auditRecord := by
  unfold readItem
  rw [hrecord]
  exact hreads.reads auditRecord hyear

theorem filing_putItem {store : DynamoDbIdempotencyStore} {item : DecisionItem}
    {auditRecord : AuditRecord} (hread : repository.readItem item = .ok auditRecord) :
    (deployedAuditing store repository).filing ⟨.decisions (.putItem item), .ok ()⟩ =
      some (.file auditRecord) := by
  show (repository.readItem item).toOption.map _ = _
  rw [hread]
  rfl

theorem spec_putItem_auditing {store : DynamoDbIdempotencyStore} {item : DecisionItem}
    {auditRecord : AuditRecord}
    (hread : repository.readItem item = .ok auditRecord) {high low : AuditPhase}
    (hgrows : high.Grows low) (hown : high.own = .drawn auditRecord.decision.decisionId) :
    Spec (deployedAuditing store repository).monitor
      (onDecisions (@Prog.perform Decisions (.putItem item)).attempt)
      (fun out low' => ∃ reply, out = .ok reply ∧
        (apiAuditing.monitor.next high (.ofPort (.save auditRecord)) reply).Grows low') low := by
  have hfiling := @filing_putItem repository store item auditRecord hread
  refine ⟨fun reply => ?_, fun reply _ => ?_⟩
  · cases reply with
    | error x => trivial
    | ok _ =>
        show Registry.Phase.Allows _ _
            ((deployedAuditing store repository).filing ⟨.decisions (.putItem item), .ok ()⟩)
        rw [hfiling]
        exact hgrows.own.trans hown
  · cases reply with
    | error x => exact ⟨_, rfl, hgrows⟩
    | ok _ =>
        refine ⟨.ok (), rfl, ?_⟩
        show (high.after (some (.file auditRecord))).Grows
          (low.after ((deployedAuditing store repository).filing
            ⟨.decisions (.putItem item), .ok ()⟩))
        rw [hfiling]
        exact hgrows.after _

/-- **The tables carry a port out by operations that do the same to the registry, or replay
more.** -/
theorem spec_carryOutTables_auditing (hreads : store.ReadsBack) (hreads' : repository.ReadsBack)
    (port : ApiPort)
    (high low : AuditPhase) (hgrows : high.Grows low) (howes : apiAuditing.monitor.owes high port)
    (hpermits : services.Permits event port) :
    Spec (deployedAuditing store repository).monitor
      (carryOutTables store repository port)
      (fun out low' => ∃ reply, out = .ok reply ∧
        (apiAuditing.monitor.next high port reply).Grows low') low := by
  have hbackend : ∀ port, auditing.monitor.owes high port →
      Spec (deployedAuditing store repository).monitor
        (onBackend (store.carryOut port))
        (fun out low' => ∃ reply, out = .ok reply ∧
          (auditing.monitor.next high port reply).Grows low') low := by
    intro port howes
    have hcarried := spec_carryOut_auditing (roundTrips_of_readsBack hreads) port high low
        hgrows howes
    refine spec_onBackend (hcarried.mono fun out low' h => ?_) (fun _ _ => id) (fun _ _ _ =>
      id) fun _ _ _ => rfl
    obtain ⟨reply, hout, -, hgrown⟩ := h
    exact ⟨reply, hout, hgrown⟩
  cases port with
  | getDecision decisionId =>
      show Spec _ (onDecisions (repository.get decisionId).attempt) _ _
      rw [onDecisions_get]
      exact ⟨fun _ => trivial, fun reply _ => ⟨_, rfl, hgrows⟩⟩
  | ofPort port =>
      cases port with
      | save auditRecord =>
          obtain ⟨request, -, hmade⟩ := infers_of_permits hpermits (Or.inr ⟨auditRecord, rfl⟩)
          refine ⟨fun reply => by cases reply <;> trivial, fun clock _ => ?_⟩
          cases clock with
          | error x => exact ⟨_, rfl, hgrows⟩
          | ok clock =>
              have hread : repository.readItem
                  (repository.savedItem auditRecord (wholeSeconds clock)) = .ok auditRecord :=
                readItem_savedItem hreads' rfl hmade.createdAt
              exact spec_putItem_auditing hread hgrows (howes (.ok ()))
      | _ => exact hbackend _ howes

/-! ## Events over the tables -/

abbrev deployedMonitor (services : HandlerServices) (event : ProxyEvent)
    (store : DynamoDbIdempotencyStore)
    (repository : DynamoDbRoutingDecisionRepository) : Monitor Deployed (AuditPhase × Unit) :=
  (deployedAuditing store repository).monitor.both (touching services store repository event)

/-- **Over the tables, an event sets off the operations it may, and no others**; what is served has
been saved or replayed, for its request. -/
theorem spec_overTables (hreads : store.ReadsBack) (hreads' : repository.ReadsBack)
    (hrepository : services.orchestrator.hasDecisionRepository = true) :
    Spec (deployedMonitor services event store repository)
      (overTables store repository (services.dispatch event))
      (fun out st => ∃ response, out = .ok response ∧
        ServedEvent services event response st) ({}, ()) := by
  have hcarryOut : ∀ (port : ApiPort) (high low : AuditPhase × Unit), high.1.Grows low.1 →
      (eventMonitor services event).owes high port →
      Spec (deployedMonitor services event store repository)
        (carryOutTables store repository port)
        (fun out low' => ∃ reply, out = .ok reply ∧
          (eventMonitor services event).relies high port reply ∧
          ((eventMonitor services event).next high port reply).1.Grows low'.1) low := by
    intro port high low hgrows howes
    refine (Spec.both (spec_carryOutTables_auditing hreads hreads' port high.1 low.1 hgrows
      howes.1 howes.2)
      (spec_carryOutTables_touches hreads port howes.2)).mono ?_
    rintro out low' ⟨⟨reply, rfl, hgrown⟩, reply', hsame, hpromised⟩
    cases hsame
    exact ⟨reply, rfl, ⟨trivial, hpromised⟩, hgrown⟩
  have hover := @Spec.interpret ApiPorts HttpReply _ _ _ Deployed (AuditPhase × Unit) _
    (fun high low => Registry.Phase.Grows high.1 low.1) id
    (carryOutTables store repository) hcarryOut (services.dispatch event)
    ({}, ()) ({}, ()) (spec_dispatch hrepository) (.refl {})
  refine hover.mono fun out low ⟨out', high, hout, ⟨response, hresponse, hserved⟩, hgrows⟩ => ?_
  subst hresponse
  refine ⟨response, hout, fun hroute hstatus => ?_⟩
  obtain ⟨request, result, hreceived, hreply, hvouched, hmade⟩ := hserved hroute hstatus
  exact ⟨request, result, hreceived, hreply, hgrows.vouched hvouched, hmade⟩

end Ports

end ModelRouter
