import ModelRouter.Application.Auditability
import ModelRouter.Application.Settlement

/-!
# Auditability over the table

An item that holds a result was put by the `complete` of a call that had saved the result. So a use
case that keeps to the registry of audit records keeps to it over the table
(`spec_overDynamoDb_auditing`), and what a look-up replays had been kept (`faithful_table`).

`answers_auditable` : whichever store the calls share, a result that was returned is on file.
-/

namespace ModelRouter
open Effects Prog DynamoDbIdempotencyStore

namespace DynamoDbIdempotencyStore

variable (store : DynamoDbIdempotencyStore)

/-! ## The registry of a caller -/

/-- What pydantic reads back of a result is, as far as it is saved, what was written. -/
def RoundTrips : Prop := ∀ result result',
  store.modelValidateJson (store.modelDumpJson result) = .ok result' →
  result'.auditRecord = result.auditRecord

/-- What was saved of the result that an item holds. -/
def storedRecord (item : Item) : Option AuditRecord :=
  item.result.bind fun json => (store.modelValidateJson json).toOption.map (·.auditRecord)

def Item.replay (item : Item) : Option (Filing String AuditRecord) :=
  if item.status = .completed then (store.storedRecord item).map .replay else none

def tableAuditing : Registry Backend String AuditRecord where
  name auditRecord := auditRecord.decision.decisionId
  filing
    | ⟨.ofPort (.newId _), .ok decisionId⟩ => some (.draw decisionId)
    | ⟨.ofPort (.save auditRecord), .ok _⟩ => some (.file auditRecord)
    | ⟨.putItem item none, .ok _⟩ => (store.storedRecord item).map .keep
    | ⟨.getItem _ _, .ok (some item)⟩ => item.replay store
    | _ => none

variable {store} {applicationId idempotencyKey requestHash : String} {high low : AuditPhase}

theorem Item.replay_eq_some {item : Item} {filing : Filing String AuditRecord}
    (h : item.replay store = some filing) :
    ∃ auditRecord, filing = .replay auditRecord ∧ item.status = .completed ∧
      store.storedRecord item = some auditRecord := by
  unfold replay at h
  split at h
  · rename_i hcompleted
    obtain ⟨auditRecord, hstored, rfl⟩ := Option.map_eq_some_iff.mp h
    exact ⟨auditRecord, rfl, hcompleted, hstored⟩
  · cases h

theorem Item.replays (item : Item) (filing : Filing String AuditRecord)
    (h : item.replay store = some filing) :
    ∃ auditRecord, filing = .replay auditRecord := (replay_eq_some h).imp fun _ h => h.1

theorem answerItem_replay {item : Item} {reservation : IdempotencyReservation}
    {filing : Filing String AuditRecord} (h : store.answerItem requestHash item = .ok reservation)
    (hreplay : reservation.replay = some filing) :
    item.replay store = some filing := by
  unfold answerItem at h
  split at h
  · cases h
    cases hreplay
  · split at h
    · cases h
      cases hreplay
    · rename_i hcompleted
      split at h
      · cases h
      · rename_i json hjson
        cases hvalid : store.modelValidateJson json with
        | error x =>
            rw [hvalid] at h
            cases h
        | ok cachedResult =>
            rw [hvalid] at h
            cases h
            rw [Item.replay, if_pos hcompleted, storedRecord, hjson, Option.bind_some, hvalid]
            exact hreplay

/-! ## The operations of the store -/

/-- The answer of a reservation is a replay only of what the caller has been replayed. -/
def Answers (reservation : IdempotencyReservation) (phase : AuditPhase) : Prop :=
  ∀ auditRecord, reservation.replay = some (.replay auditRecord) → auditRecord ∈ phase.replayed

theorem spec_reserve_auditing (phase : AuditPhase) :
    Spec (tableAuditing store).monitor (store.reserve applicationId idempotencyKey requestHash)
      (fun out phase' => phase.Grows phase' ∧ ∀ reservation, out = .ok reservation →
        Answers reservation phase')
      phase := by
  refine spec_reserve_observed (fun low operation hgrows hreserving => ?_) (fun low _ => ?_)
    (fun low item reservation hgrows _ hanswer => ?_) (.refl phase)
  · cases operation with
    | clockSeconds => exact ⟨fun _ => trivial, fun reply => by cases reply <;> exact hgrows⟩
    | putItem item condition =>
        obtain ⟨now, -, rfl⟩ := hreserving
        exact ⟨fun _ => trivial, fun reply => by cases reply <;> exact hgrows⟩
    | getItem pk sk =>
        refine ⟨fun reply => ?_, fun reply => ?_⟩ <;> rcases reply with x | _ | item
        · trivial
        · trivial
        · exact Registry.Phase.allows_replay item.replays low _
        · exact hgrows
        · exact hgrows
        · exact hgrows.trans (Registry.Phase.grows_replay item.replays low)
    | ofPort | deleteItem => exact hreserving.elim
  · rintro auditRecord hreplay
    cases hreplay
  · intro auditRecord hreplay
    show auditRecord ∈ (low.after (item.replay store)).replayed
    rw [answerItem_replay hanswer hreplay]
    exact List.mem_cons_self

theorem spec_complete_auditing (htrips : store.RoundTrips) {result : InferenceResult}
    {phase : AuditPhase}
    (hown : phase.own = .filed result.auditRecord) (cacheResult : Bool) (retentionSeconds : Nat) :
    Spec (tableAuditing store).monitor
      (store.complete applicationId idempotencyKey requestHash result cacheResult retentionSeconds)
      (fun _ phase' => phase' = phase) phase := by
  have hstays : ∀ item, phase.after ((store.storedRecord item).map .keep) = phase := by
    intro item
    cases store.storedRecord item <;> rfl
  unfold complete
  split
  · exact Spec.perform (fun _ => trivial) fun _ _ => rfl
  · refine Spec.performBind (fun _ => trivial) (fun clock _ => ?_) fun _ _ => rfl
    refine Spec.perform (fun reply => ?_) fun reply _ => ?_
    · cases reply with
      | error x => trivial
      | ok _ =>
          show Registry.Phase.Allows _ _ ((store.storedRecord _).map _)
          cases hstored : store.storedRecord _ with
          | none => trivial
          | some auditRecord =>
              have hread : (store.modelValidateJson (store.modelDumpJson result)).toOption.map
                  (·.auditRecord) = some auditRecord := hstored
              cases hvalid : store.modelValidateJson (store.modelDumpJson result) with
              | error x =>
                  rw [hvalid] at hread
                  cases hread
              | ok result' =>
                  rw [hvalid] at hread
                  cases hread
                  show phase.own = .filed result'.auditRecord
                  rw [htrips result result' hvalid]
                  exact hown
    · cases reply with
      | error x => rfl
      | ok _ => exact hstays _

/-! ## Use cases over the store -/

/-- The store carries a port out by calls that do the same to the registry, or replay more. -/
theorem spec_carryOut_auditing (htrips : store.RoundTrips) (port : Port) (high low : AuditPhase)
    (hgrows : high.Grows low) (howes : auditing.monitor.owes high port) :
    Spec (tableAuditing store).monitor (store.carryOut port)
      (fun out low' => ∃ reply, out = .ok reply ∧ auditing.monitor.relies high port reply ∧
        (auditing.monitor.next high port reply).Grows low') low := by
  have haside : (tableAuditing store).Aside (.ofPort port) → auditing.Aside port →
      Spec (tableAuditing store).monitor (tryRequest (.ofPort port))
        (fun out low' => ∃ reply, out = .ok reply ∧ auditing.monitor.relies high port reply ∧
          (auditing.monitor.next high port reply).Grows low') low := by
    intro hlow hhigh
    refine ⟨hlow.owes low, fun reply _ => ⟨reply, rfl, trivial, ?_⟩⟩
    rw [hlow.next, hhigh.next]
    exact hgrows
  cases port with
  | reserve applicationId idempotencyKey requestHash =>
      refine Spec.attempt ((spec_reserve_auditing low).mono fun out low' h => ?_)
      obtain ⟨hgrows', hanswers⟩ := h
      have hgrown := hgrows.trans hgrows'
      refine ⟨out, rfl, trivial, ?_⟩
      cases out with
      | error x => exact hgrown
      | ok reservation =>
          show (high.after reservation.replay).Grows low'
          cases hreplay : reservation.replay with
          | none => exact hgrown
          | some filing =>
              obtain ⟨auditRecord, rfl⟩ := IdempotencyReservation.replay_eq_some hreplay
              refine ⟨hgrown.own, fun auditRecord' hmem => ?_⟩
              rcases List.mem_cons.mp hmem with rfl | hmem
              · exact hanswers reservation rfl _ hreplay
              · exact hgrown.replayed auditRecord' hmem
  | complete applicationId idempotencyKey requestHash result cacheResult retentionSeconds =>
      have hfiled : high.own = .filed result.auditRecord := howes (.ok ())
      refine Spec.attempt ((spec_complete_auditing htrips
        (hgrows.own.trans hfiled) cacheResult retentionSeconds).mono
        fun out low' hlow => ⟨out, rfl, trivial, ?_⟩)
      subst hlow
      cases out <;> exact hgrows
  | release applicationId idempotencyKey =>
      have hrelease : Spec (tableAuditing store).monitor (release applicationId idempotencyKey)
          (fun _ low' => low' = low) low := Spec.perform (fun _ => trivial) fun _ _ => rfl
      refine Spec.attempt (hrelease.mono fun out low' hlow => ⟨out, rfl, trivial, ?_⟩)
      subst hlow
      exact hgrows
  | newId kind =>
      refine ⟨fun reply => by cases reply <;> trivial, fun reply _ => ⟨reply, rfl, trivial, ?_⟩⟩
      cases reply with
      | error x => exact hgrows
      | ok decisionId => exact hgrows.after (some (.draw decisionId))
  | save auditRecord =>
      refine ⟨fun reply => ?_, fun reply _ => ⟨reply, rfl, trivial, ?_⟩⟩
      · cases reply with
        | error x => trivial
        | ok _ => exact hgrows.allows (howes (.ok ()))
      · cases reply with
        | error x => exact hgrows
        | ok _ => exact hgrows.after (some (.file auditRecord))
  | _ => exact haside (fun _ => rfl) fun _ => rfl

/-- **A use case that keeps to the registry keeps to it over the store.** -/
theorem spec_overDynamoDb_auditing (htrips : store.RoundTrips)
    {useCase : Prog Ports InferenceResult} (h : Spec auditing.monitor useCase VouchedFor {}) :
    Spec (tableAuditing store).monitor (store.overDynamoDb useCase) VouchedFor {} := by
  have hover := @Spec.interpret Ports InferenceResult _ _ VouchedFor Backend AuditPhase _
      Registry.Phase.Grows id
    store.carryOut (fun port high low => spec_carryOut_auditing htrips port high low) useCase {}
      {} h (.refl {})
  refine hover.mono fun out low ⟨out', high, hout, hvouched, hgrows⟩ result hresult => ?_
  cases out' with
  | error x =>
      rw [hout] at hresult
      cases hresult
  | ok result' =>
      obtain rfl : result' = result := Except.ok.inj (hout.symm.trans hresult)
      exact hgrows.vouched (hvouched result' rfl)

namespace TableState

variable {ι : Type} [DecidableEq ι] {s s₀ : TableState} {log : List (Entry Backend TableState ι)}
  {G : TableState → List (Entry Backend TableState ι) → Prop}

/-! ## The table -/

theorem put_of_completed (hempty : s₀.table = fun _ => none)
    (h : tableMachine.Lawful (tableProtocol store) (.ready 0) G s₀ s log) {key : String × String}
    {item : Item} (hitem : s.table key = some item) (hcompleted : item.status = .completed) :
    ∃ entry ∈ log, entry.event = ⟨.putItem item none, .ok ()⟩ := by
  induction h with
  | init =>
      rw [hempty] at hitem
      cases hitem
  | tick _ htick _ ih => exact ih (htick.1 ▸ hitem)
  | @call s s' log i call reply _ howes hact _ ih =>
      have hearlier : s'.table key = s.table key →
          ∃ entry ∈ (⟨i, s, ⟨call, reply⟩⟩ :: log : List (Entry Backend TableState ι)),
            entry.event = ⟨.putItem item none, .ok ()⟩ := by
        intro hsame
        obtain ⟨entry, hentry, hput⟩ := ih (hsame ▸ hitem)
        exact ⟨entry, List.mem_cons_of_mem _ hentry, hput⟩
      cases call with
      | ofPort port =>
          cases (show s' = s from hact)
          exact hearlier rfl
      | clockSeconds =>
          obtain ⟨-, rfl⟩ := hact
          exact hearlier rfl
      | getItem pk sk =>
          obtain ⟨-, rfl⟩ := hact
          exact hearlier rfl
      | deleteItem pk sk =>
          rcases hact with ⟨-, rfl⟩ | ⟨-, rfl⟩
          · by_cases hkey : key = (pk, sk)
            · subst hkey
              rw [set_table_self] at hitem
              cases hitem
            · exact hearlier (set_table_of_ne hkey ..)
          · exact hearlier rfl
      | putItem item' condition =>
          rcases hact with hput | ⟨-, rfl⟩
          · unfold putItem at hput
            split at hput
            · obtain ⟨rfl, rfl⟩ := Prod.mk.inj hput
              by_cases hkey : key = item'.key
              · subst hkey
                rw [set_table_self] at hitem
                obtain rfl := Option.some.inj hitem
                cases condition with
                | none => exact ⟨_, List.mem_cons_self, rfl⟩
                | some now =>
                    obtain ⟨-, hreserved⟩ := howes
                    rw [hreserved] at hcompleted
                    cases hcompleted
              · exact hearlier (set_table_of_ne hkey ..)
            · obtain ⟨-, rfl⟩ := Prod.mk.inj hput
              exact hearlier rfl
          · exact hearlier rfl

theorem faithful_table (hempty : s₀.table = fun _ => none)
    (h : tableMachine.Lawful (tableProtocol store) (.ready 0) G s₀ s log) :
      (tableAuditing store).Faithful log := by
  induction h with
  | init => trivial
  | tick _ _ _ ih => exact ih
  | @call s s' log i call reply h _ hact _ ih =>
      refine ⟨fun auditRecord hreplay => ?_, ih⟩
      cases call with
      | getItem pk sk =>
          rcases hact.1 with hreply | ⟨x, rfl, -⟩
          · subst hreply
            cases hfound : s.table (pk, sk) with
            | none =>
                rw [hfound] at hreplay
                cases hreplay
            | some item =>
                rw [hfound] at hreplay
                obtain ⟨auditRecord', hsame, hcompleted, hstored⟩ := Item.replay_eq_some hreplay
                obtain rfl := Filing.replay.inj hsame
                obtain ⟨entry, hentry, hput⟩ := put_of_completed hempty h hfound hcompleted
                refine ⟨entry, hentry, ?_⟩
                rw [hput]
                show (store.storedRecord item).map Filing.keep = _
                rw [hstored]
                rfl
          · cases hreplay
      | putItem item condition =>
          cases condition with
          | some now => cases hreplay
          | none =>
              cases reply with
              | error x => cases hreplay
              | ok _ =>
                  obtain ⟨_, _, hkeep⟩ := Option.map_eq_some_iff.mp hreplay
                  cases hkeep
      | ofPort port => cases port <;> cases reply <;> cases hreplay
      | clockSeconds | deleteItem => cases reply <;> cases hreplay

variable {orchestrators : ι → InvocationOrchestrator} {requests : ι → InferenceRequest} {now : Int}
  {c : Config Backend TableState ι InferenceResult}

theorem auditable_table (htrips : store.RoundTrips)
    (hrepository : ∀ i, (orchestrators i).hasDecisionRepository = true)
    (h : tableMachine.Reachable G (start store orchestrators requests now) c)
    (hnames : ((tableAuditing store).names c.log).Nodup) {i : ι} {result : InferenceResult}
    (hreturned : c.threads i = .ret result) :
    (repositoryAfter (tableAuditing store) c.log).get result.decision.decisionId =
      some result.auditRecord := by
  have hspec : ∀ i, Spec (tableAuditing store).monitor
      ((start store orchestrators requests now).threads i)
      VouchedFor {} := fun i =>
        spec_overDynamoDb_auditing htrips (spec_invoke_auditing (hrepository i))
  obtain ⟨hlawful, hthreads⟩ := h.lawful rfl hspec fun _ _ _ _ _ _ _ _ _ => trivial
  have hkempt := Registry.kempt hlawful hnames (faithful_table rfl (lawful_invoke h))
  have hthread := hthreads i
  rw [hreturned] at hthread
  rw [get_repositoryAfter fun _ => rfl]
  exact hkempt.onFile (hthread result rfl)

end TableState

end DynamoDbIdempotencyStore

open DynamoDbIdempotencyStore

/-- **Whichever store the calls share, from the moment a result is returned the repository holds
what was saved of it.** -/
theorem answers_auditable {ι : Type} [DecidableEq ι] (orchestrators : ι → InvocationOrchestrator)
    (requests : ι → InferenceRequest) (staleReservation now : Int)
    (store : DynamoDbIdempotencyStore) (htrips : store.RoundTrips)
    (hrepository : ∀ i, (orchestrators i).hasDecisionRepository = true) (i : ι)
    (result : InferenceResult) :
    (∀ c, storeMachine.Reachable (fun _ _ => True)
      (SharedStore.start orchestrators requests staleReservation now) c →
      c.threads i = .ret result → ∀ later, storeMachine.Reachable (fun _ _ => True) c later →
        (auditing.names later.log).Nodup →
        (repositoryAfter auditing later.log).get result.decision.decisionId =
          some result.auditRecord) ∧
    ∀ c, tableMachine.Reachable (fun _ _ => True)
      (TableState.start store orchestrators requests now) c →
      c.threads i = .ret result → ∀ later, tableMachine.Reachable (fun _ _ => True) c later →
        ((tableAuditing store).names later.log).Nodup →
        (repositoryAfter (tableAuditing store) later.log).get result.decision.decisionId =
          some result.auditRecord := by
  constructor
  · intro c h hreturned later hlater hnames
    exact auditable_inMemory hrepository (h.trans hlater) hnames (hlater.stays_returned hreturned)
  · intro c h hreturned later hlater hnames
    exact TableState.auditable_table htrips hrepository (h.trans hlater) hnames
      (hlater.stays_returned hreturned)

namespace Scenario

theorem tableOfUnavailable_roundTrips : tableOfUnavailable.RoundTrips := by
  intro result result' hread
  have hempty : (tableOfUnavailable.modelValidateJson "").toOption = none := by decide +kernel
  have hvalid : (tableOfUnavailable.modelValidateJson unavailableJson).toOption =
      some unavailable := by decide +kernel
  by_cases hresult : result = unavailable
  · subst hresult
    have hdump : tableOfUnavailable.modelDumpJson unavailable = unavailableJson := by decide +kernel
    rw [hdump] at hread
    rw [hread] at hvalid
    exact congrArg InferenceResult.auditRecord (Option.some.inj hvalid)
  · have hdump : tableOfUnavailable.modelDumpJson result = "" := if_neg hresult
    rw [hdump] at hread
    rw [hread] at hempty
    cases hempty

def twoTableCalls : Config Backend TableState (Fin 2) InferenceResult :=
  TableState.start tableOfUnavailable (fun _ => Scenario.orchestrator) (fun _ => keyed) 0

/-- Of two calls with one key, over either store, the second is replayed the result of the first,
which is on file. -/
theorem replayed_auditable :
    (∃ c, storeMachine.Reachable (fun _ _ => True) twoCalls c ∧ auditing.names c.log = ["dec_1"] ∧
      c.threads 0 = .ret unavailable ∧ c.threads 1 = .ret unavailable ∧
      (repositoryAfter auditing c.log).get "dec_1" = some unavailable.auditRecord) ∧
    ∃ c, tableMachine.Reachable (fun _ _ => True) twoTableCalls c ∧
      (tableAuditing tableOfUnavailable).names c.log = ["dec_1"] ∧
      c.threads 0 = .ret unavailable ∧ c.threads 1 = .ret unavailable ∧
      (repositoryAfter (tableAuditing tableOfUnavailable) c.log).get "dec_1" =
        some unavailable.auditRecord := by
  have hauditable := answers_auditable (fun _ : Fin 2 => Scenario.orchestrator) (fun _ =>
      keyed) 300000000 0
    tableOfUnavailable tableOfUnavailable_roundTrips (fun _ => rfl) 1 unavailable
  constructor
  · have hreach : storeMachine.Reachable (fun _ _ => True) twoCalls
        (twoCalls.play (storeAnswer barred) advance (alone 0 20 ++ alone 1 1)) :=
          reachable_play barred .refl _
    have hnames : auditing.names
        (twoCalls.play (storeAnswer barred) advance (alone 0 20 ++ alone 1 1)).log = ["dec_1"] := by
      decide +kernel
    have hreturned : ∀ i : Fin 2,
        ((twoCalls.play (storeAnswer barred) advance
          (alone 0 20 ++ alone 1 1)).threads i).returned = some unavailable := by decide +kernel
    refine ⟨_, hreach, hnames, Prog.eq_ret_of_returned (hreturned 0),
      Prog.eq_ret_of_returned (hreturned 1), ?_⟩
    exact hauditable.1 _ hreach (Prog.eq_ret_of_returned (hreturned 1)) _ .refl
      (by rw [hnames]; decide)
  · have hreach : tableMachine.Reachable (fun _ _ => True) twoTableCalls
        (twoTableCalls.play (tableAnswer barred) laterBy (alone 0 20 ++ alone 1 3)) :=
      reachable_tablePlay barred .refl _
    have hnames : (tableAuditing tableOfUnavailable).names
        (twoTableCalls.play (tableAnswer barred) laterBy (alone 0 20 ++ alone 1 3)).log =
          ["dec_1"] := by
      decide +kernel
    have hreturned : ∀ i : Fin 2,
        ((twoTableCalls.play (tableAnswer barred) laterBy (alone 0 20 ++ alone 1 3)).threads
          i).returned = some unavailable := by decide +kernel
    refine ⟨_, hreach, hnames, Prog.eq_ret_of_returned (hreturned 0),
      Prog.eq_ret_of_returned (hreturned 1), ?_⟩
    exact hauditable.2 _ hreach (Prog.eq_ret_of_returned (hreturned 1)) _ .refl
      (by rw [hnames]; decide)

end Scenario

end ModelRouter
