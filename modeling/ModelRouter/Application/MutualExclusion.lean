import ModelRouter.Application.InMemoryReservations
import ModelRouter.Application.World

/-!
# Mutual exclusion and replay in memory

Any number of `invoke` calls share one in-memory store. As long as every call that was answered NEW
is inside the window of its reservation (`Timely`), at most one call is in flight for a key; a
COMPLETED answer carries the result the key was last completed with, and a live record of another
request answers CONFLICT (`invoke_mutual_exclusion`).
-/

namespace ModelRouter
open Effects Prog SharedStore

variable {ι : Type} [DecidableEq ι]

namespace SharedStore

/-- The calls `(orchestrators i).invoke (requests i)` before their first step, over an empty
store. -/
def start (orchestrators : ι → InvocationOrchestrator) (requests : ι → InferenceRequest)
    (staleReservation now : Int) : Config Ports SharedStore ι InferenceResult where
  shared := { store := { staleReservation }, now }
  threads i := (orchestrators i).invoke (requests i)
  log := []

variable {s s₀ : SharedStore} {log : List (Entry Ports SharedStore ι)}

theorem lawful_inTime (h : storeMachine.Lawful reservationProtocol none leasing.Timely s₀ s log) :
    storeMachine.Lawful reservationProtocol none leasing.SettlesInTime s₀ s log :=
  h.mono Lease.Leasing.timely_nil trivial (fun _ _ _ _ _ _ htimely _ =>
    htimely.settlesInTime) fun _ _ _ hG _ => hG

theorem lawful_invoke {orchestrators : ι → InvocationOrchestrator} {requests : ι → InferenceRequest}
    {staleReservation now : Int} {G : SharedStore → List (Entry Ports SharedStore ι) → Prop}
    {c : Config Ports SharedStore ι InferenceResult}
    (h : storeMachine.Reachable G (start orchestrators requests staleReservation now) c) :
    storeMachine.Lawful reservationProtocol none G
      (start orchestrators requests staleReservation now).shared
      c.shared c.log := by
  have hspec : ∀ i, Spec reservationProtocol
      ((start orchestrators requests staleReservation now).threads i)
      (fun _ _ => True) none := fun i => InvocationOrchestrator.spec_invoke_protocol
  exact (h.lawful rfl hspec fun _ _ _ _ _ _ _ _ _ => trivial).1

theorem replayed {G : SharedStore → List (Entry Ports SharedStore ι) → Prop}
    {applicationId idempotencyKey requestHash : String} {reservation : IdempotencyReservation}
    {s' : SharedStore} (hempty : s₀.store.records = fun _ => none)
    (h : storeMachine.Lawful reservationProtocol none G s₀ s log)
    (hact : storeMachine.act s (.reserve applicationId idempotencyKey requestHash)
      (.ok reservation) s')
    (hcompleted : reservation.outcome = .completed) :
    ∃ result retentionSeconds completing,
      LastCompletion applicationId idempotencyKey requestHash result retentionSeconds log
        completing ∧
        reservation.cachedResult = some result ∧ completing.before.now ≤ s.now ∧
        s.now < completing.before.now + retentionSeconds * 1000000 := by
  rcases InMemoryIdempotencyStore.reserve_cases hact.1 with
    ⟨record, hrecord, hlive, hanswer, -⟩ | ⟨-, hnew, -⟩ | ⟨x, hraised, -⟩
  · have hsame : reservation = record.answer requestHash := Except.ok.inj hanswer
    rw [hsame, InMemoryIdempotencyStore.Record.answer] at hcompleted
    by_cases hhash : record.requestHash = requestHash
    · rw [if_neg (not_not.mpr hhash)] at hcompleted
      have hdone : record.inProgress = false := by
        by_contra hprogress
        rw [if_pos (by simpa using hprogress)] at hcompleted
        cases hcompleted
      obtain ⟨result, retentionSeconds, completing, hlast, hresult, hexpiresAt⟩ :=
        written hempty h applicationId idempotencyKey record hrecord hdone
      rw [hhash] at hlast
      refine ⟨result, retentionSeconds, completing, hlast, ?_, ?_, ?_⟩
      · rw [hsame, InMemoryIdempotencyStore.Record.answer, if_neg (not_not.mpr hhash),
          if_neg (by simp [hdone])]
        exact hresult
      · obtain ⟨between, before, hlog, -, -⟩ := hlast.latest
        refine now_le h completing ?_
        rw [hlog]
        simp
      · rw [← hexpiresAt]
        exact hlive
    · rw [if_pos hhash] at hcompleted
      cases hcompleted
  · cases Except.ok.inj hnew
    cases hcompleted
  · cases hraised

end SharedStore

namespace InvocationOrchestrator

/-- **At most one call is in flight for a key, and what is replayed is what was last completed.** -/
theorem invoke_mutual_exclusion (orchestrators : ι → InvocationOrchestrator)
    (requests : ι → InferenceRequest)
    (staleReservation now : Int) (c : Config Ports SharedStore ι InferenceResult)
    (h : storeMachine.Reachable leasing.Timely
      (start orchestrators requests staleReservation now) c) :
    (∀ i j key, leasing.InFlight i key c.log → leasing.InFlight j key c.log → i = j) ∧
    (∀ later entry past applicationId idempotencyKey requestHash reservation,
      c.log = later ++ entry :: past →
      entry.event = ⟨.reserve applicationId idempotencyKey requestHash, .ok reservation⟩ →
      reservation.outcome = .completed →
      ∃ result retentionSeconds completing,
        LastCompletion applicationId idempotencyKey requestHash result retentionSeconds past
          completing ∧
          reservation.cachedResult = some result ∧ completing.before.now ≤ entry.before.now ∧
          entry.before.now < completing.before.now + retentionSeconds * 1000000) ∧
    (∀ applicationId idempotencyKey requestHash record,
      c.shared.store.records (applicationId, idempotencyKey) = some record →
      record.Live c.shared.now →
      record.requestHash ≠ requestHash → ∀ reply s',
        storeMachine.act c.shared (.reserve applicationId idempotencyKey requestHash) reply s' →
        reply = .ok { outcome := .conflict } ∧ s' = c.shared) := by
  have hlawful := lawful_invoke h
  have htimely : leasing.Timely c.shared c.log := hlawful.guard Lease.Leasing.timely_nil
  have howned := owned (lawful_inTime hlawful)
  refine ⟨?_, ?_, ?_⟩
  · intro i j key hi hj
    exact Lease.Leasing.exclusive howned htimely hi hj
  · intro later entry past applicationId idempotencyKey requestHash reservation hlog hevent
      hcompleted
    rw [hlog] at hlawful
    obtain ⟨hbefore, -, s', hact, -⟩ := hlawful.split
    obtain ⟨i, s, event⟩ := entry
    cases hevent
    exact replayed rfl hbefore hact hcompleted
  · intro applicationId idempotencyKey requestHash record hrecord hlive hhash reply s'
      ⟨hreserve, hnow⟩
    rw [InMemoryIdempotencyStore.reserve_live hrecord hlive] at hreserve
    obtain ⟨rfl, hstore⟩ := Prod.mk.inj hreserve
    rw [InMemoryIdempotencyStore.Record.answer, if_pos hhash]
    obtain ⟨store', now'⟩ := s'
    cases hnow
    cases hstore
    exact ⟨rfl, rfl⟩

end InvocationOrchestrator

/-! ## A replay -/

namespace Scenario

/-- The store answers its ports, the world the others. -/
def storeAnswer (world : World) : Handler Ports SharedStore
  | .reserve applicationId idempotencyKey requestHash, s =>
    let answered := s.store.reserve s.now applicationId idempotencyKey requestHash
    (answered.1, { s with store := answered.2 })
  | .complete applicationId idempotencyKey requestHash result cacheResult retentionSeconds, s =>
    let answered := s.store.complete s.now applicationId idempotencyKey requestHash result
      cacheResult retentionSeconds
    (answered.1, { s with store := answered.2 })
  | .release applicationId idempotencyKey, s =>
    let answered := s.store.release applicationId idempotencyKey
    (answered.1, { s with store := answered.2 })
  | port, s => ((world.answer port fresh).1, s)

def advance (duration : Nat) (s : SharedStore) : SharedStore := { s with now := s.now + duration }

theorem storeMachine_act (world : World) (port : Port) (s : SharedStore) :
    storeMachine.act s port (storeAnswer world port s).1 (storeAnswer world port s).2 := by
  cases port <;> first | exact ⟨rfl, rfl⟩ | exact rfl

theorem storeMachine_tick (duration : Nat) (s : SharedStore) :
    storeMachine.tick s (advance duration s) := by
  refine ⟨rfl, ?_⟩
  show s.now ≤ s.now + duration
  omega

/-- The first call runs to its end; the second reserves five minutes less a second later. -/
def replay : List (Move (Fin 2)) := List.replicate 20 (.call 0) ++ [.wait 299000000, .call 1]

def twoCalls : Config Ports SharedStore (Fin 2) InferenceResult :=
  SharedStore.start (fun _ => Scenario.orchestrator) (fun _ => keyed) 300000000 0

/-- The call reserved a key and was answered COMPLETED. -/
def AnsweredCompleted (entry : Entry Ports SharedStore (Fin 2)) : Bool :=
  match entry.event with
  | ⟨.reserve _ _ _, .ok reservation⟩ => reservation.outcome = .completed
  | _ => false

theorem second_replayed : ∃ c, storeMachine.Reachable leasing.Timely twoCalls c ∧
    ∃ entry past applicationId idempotencyKey requestHash reservation result retentionSeconds
      completing,
      c.log = entry :: past ∧
      entry.event = ⟨.reserve applicationId idempotencyKey requestHash, .ok reservation⟩ ∧
      reservation.cachedResult = some result ∧
      LastCompletion applicationId idempotencyKey requestHash result retentionSeconds past
        completing := by
  have hkeeps : twoCalls.PlayKeeps (storeAnswer caching) advance leasing.Timely replay := by
    decide +kernel
  have hreach : storeMachine.Reachable leasing.Timely twoCalls
      (twoCalls.play (storeAnswer caching) advance replay) :=
    Machine.Reachable.play (storeMachine_act caching) storeMachine_tick .refl replay hkeeps
  have hcompleted : (twoCalls.play (storeAnswer caching) advance replay).log.head?.map
      AnsweredCompleted = some true := by
    decide +kernel
  refine ⟨_, hreach, ?_⟩
  cases hlog : (twoCalls.play (storeAnswer caching) advance replay).log with
  | nil =>
      rw [hlog] at hcompleted
      cases hcompleted
  | cons entry past =>
      rw [hlog] at hcompleted
      have hentry : AnsweredCompleted entry = true := Option.some.inj hcompleted
      obtain ⟨i, s, event⟩ := entry
      unfold AnsweredCompleted at hentry
      split at hentry
      · rename_i applicationId idempotencyKey requestHash reservation hevent
        obtain ⟨result, retentionSeconds, completing, hlast, hresult, -, -⟩ :=
          (InvocationOrchestrator.invoke_mutual_exclusion (fun _ => Scenario.orchestrator) (fun _ =>
            keyed) 300000000 0 _
            hreach).2.1 [] _ past applicationId idempotencyKey requestHash reservation hlog hevent
              (by simpa using hentry)
        exact ⟨_, past, applicationId, idempotencyKey, requestHash, reservation, result,
          retentionSeconds, completing,
          rfl, hevent, hresult, hlast⟩
      · cases hentry

end Scenario

end ModelRouter
