import ModelRouter.Adapters.InMemoryIdempotencyStore
import ModelRouter.Application.ReservationProtocol
import ModelRouter.Lib.LeaseLog
import Mathlib.Data.Int.ConditionallyCompleteOrder

/-!
# Reservations in memory

Callers share one in-memory idempotency store under a clock that never goes back (`storeMachine`). A
reservation that was answered NEW is a lease of its key until its `expires_at`; the log of calls is
a log of leases (`leaseEvent`).

* `leases_run` : callers that keep the reservation protocol and settle within their windows run the
  lease machine;
* `written` : a record that is not in progress was left by the last call that moved its key, a
  `complete` of a holder;
* `now_le` : the clock never goes back along the log.
-/

namespace ModelRouter
open Effects Prog

/-! ## The machine -/

structure SharedStore where
  store : InMemoryIdempotencyStore
  now : Int

/-- The store answers its three ports; every other port may answer anything. -/
def storeMachine : Machine Ports SharedStore where
  act s port reply s' := match port with
    | .reserve applicationId idempotencyKey requestHash =>
      s.store.reserve s.now applicationId idempotencyKey requestHash = (reply, s'.store) ∧
      s'.now = s.now
    | .complete applicationId idempotencyKey requestHash result cacheResult retentionSeconds =>
      s.store.complete s.now applicationId idempotencyKey requestHash result cacheResult
        retentionSeconds =
        (reply, s'.store) ∧ s'.now = s.now
    | .release applicationId idempotencyKey =>
      s.store.release applicationId idempotencyKey = (reply, s'.store) ∧ s'.now = s.now
    | _ => s' = s
  tick s s' := s'.store = s.store ∧ s.now ≤ s'.now

namespace SharedStore

variable {ι : Type}

/-! ## The leases -/

/-- What a call of the store does to the leases. A call that raises gives its reservation up. -/
def leaseEvent (entry : Entry Ports SharedStore ι) : Option (Lease.Event (String × String) ι Int) :=
  match entry.event with
  | ⟨.reserve applicationId idempotencyKey _, .ok reservation⟩ =>
    if reservation.outcome = .new then
      some (.take entry.thread (applicationId, idempotencyKey)
        (entry.before.now + entry.before.store.staleReservation))
    else none
  | ⟨.complete applicationId idempotencyKey _ _ _ _, .ok _⟩ =>
    some (.settle entry.thread (applicationId, idempotencyKey))
  | ⟨.complete _ _ _ _ _ _, .error _⟩ => some (.abandon entry.thread)
  | ⟨.release applicationId idempotencyKey, .ok _⟩ =>
      some (.settle entry.thread (applicationId, idempotencyKey))
  | ⟨.release _ _, .error _⟩ => some (.abandon entry.thread)
  | _ => none

theorem leaseEvent_actor (entry : Entry Ports SharedStore ι) :
    ∀ event ∈ leaseEvent entry, event.actor = entry.thread := by
  intro event h
  unfold leaseEvent at h
  split at h
  · split at h
    · cases h
      rfl
    · cases h
  all_goals
    cases h
    try rfl

/-- A reservation has expired at its `expires_at`. -/
def expiry : Lease.Expiry Int where
  Expired deadline now := deadline ≤ now
  mono := le_trans

/-- A reservation that was answered NEW is a lease of its key until its `expires_at`. -/
def leasing : Lease.Leasing Ports SharedStore (String × String) ι Int where
  event := leaseEvent
  actor := leaseEvent_actor
  expiry := expiry
  now s := s.now
  deadline s key := (s.store.records key).map (·.expiresAt)

instance : DecidableRel
    (leasing : Lease.Leasing Ports SharedStore (String × String) ι Int).expiry.Expired :=
  fun deadline now => inferInstanceAs (Decidable (deadline ≤ now))

theorem leasing_agrees :
    (leasing : Lease.Leasing Ports SharedStore (String × String) ι Int).Agrees reservationProtocol
      (Option.map HeldReservation.key) := by
  rintro held ⟨i, s, port, reply⟩
  cases port with
  | reserve applicationId idempotencyKey requestHash =>
      cases reply with
      | error x => rfl
      | ok reservation =>
          dsimp only
          rw [next_reserve]
          by_cases hnew : reservation.outcome = .new
          · have hevent : leasing.event
                (⟨i, s, ⟨.reserve applicationId idempotencyKey requestHash, .ok reservation⟩⟩ :
                Entry Ports SharedStore ι) =
                  some (.take i (applicationId, idempotencyKey)
                    (s.now + s.store.staleReservation)) := if_pos hnew
            rw [hevent, if_pos hnew]
            rfl
          · have hevent : leasing.event
                (⟨i, s, ⟨.reserve applicationId idempotencyKey requestHash, .ok reservation⟩⟩ :
                Entry Ports SharedStore ι) = none := if_neg hnew
            rw [hevent, if_neg hnew]
            rfl
  | complete => cases reply <;> rfl
  | release => cases reply <;> rfl
  | _ => rfl

variable [DecidableEq ι]

theorem inFlight_of_held {i : ι} {log : List (Entry Ports SharedStore ι)} {held : HeldReservation}
    (h : reservationProtocol.phase none i log = some held) : leasing.InFlight i held.key log := by
  have hkey : (reservationProtocol.phase none i log).map HeldReservation.key = some held.key := by
    rw [h, Option.map_some]
  exact @Lease.Reading.Agrees.holding _ _ _ _ _ _ _ _ _ _ _ leasing_agrees none rfl _ _ hkey

/-! ## The store runs the lease machine -/

theorem deadlines_write (store : InMemoryIdempotencyStore) (applicationId idempotencyKey : String)
    (record : InMemoryIdempotencyStore.Record) :
    (fun key => ((store.write applicationId idempotencyKey record).records key).map (·.expiresAt)) =
      Function.update (fun key => (store.records key).map (·.expiresAt)) (applicationId,
        idempotencyKey)
        (some record.expiresAt) := by
  funext key
  by_cases hkey : key = (applicationId, idempotencyKey)
  · subst hkey
    simp only [InMemoryIdempotencyStore.write, Function.update_self, Option.map_some]
  · simp only [InMemoryIdempotencyStore.write, Function.update_of_ne hkey]

theorem deadlines_pop (store : InMemoryIdempotencyStore) (applicationId idempotencyKey : String) :
    (fun key => ((store.pop applicationId idempotencyKey).records key).map (·.expiresAt)) =
      Function.update (fun key => (store.records key).map (·.expiresAt)) (applicationId,
        idempotencyKey) none := by
  funext key
  by_cases hkey : key = (applicationId, idempotencyKey)
  · subst hkey
    simp only [InMemoryIdempotencyStore.pop, Function.update_self, Option.map_none]
  · simp only [InMemoryIdempotencyStore.pop, Function.update_of_ne hkey]

variable {s s' : SharedStore} {log : List (Entry Ports SharedStore ι)} {i : ι} {port : Port}
  {reply : Except PyException port.Answer} {entry : Entry Ports SharedStore ι}

theorem step_settle {held : HeldReservation} {left : Option Int} {event : Event Ports}
    (hheld : reservationProtocol.phase none i log = some held)
    (hentry : leaseEvent ⟨i, s, event⟩ = some (.settle i held.key))
    (hintime : leasing.SettlesInTime s' (⟨i, s, event⟩ :: log)) (hnow : s'.now = s.now)
    (hdeadlines : (fun key => (s'.store.records key).map (·.expiresAt)) =
      Function.update (fun key => (s.store.records key).map (·.expiresAt)) held.key left) :
    Lease.Step expiry (leasing.state s log) (leasing.state s' (⟨i, s, event⟩ :: log)) := by
  obtain ⟨deadline, hholding⟩ := inFlight_of_held hheld
  have hwindow : Lease.InWindow expiry (leasing.state s log) i held.key deadline :=
    ⟨hholding, hintime _ hentry trivial _ hholding⟩
  exact .settle hwindow hnow hdeadlines (Lease.Reading.events_cons_some hentry)

/-- What a call is for the leases, when every settlement is in time. -/
theorem step_call (howes : reservationProtocol.owes (reservationProtocol.phase none i log) port)
    (hact : storeMachine.act s port reply s')
    (hintime : leasing.SettlesInTime s' (⟨i, s, ⟨port, reply⟩⟩ :: log)) :
    Relation.ReflGen (Lease.Step expiry) (leasing.state s log)
      (leasing.state s' (⟨i, s, ⟨port, reply⟩⟩ :: log)) := by
  obtain ⟨store', now'⟩ := s'
  cases port with
  | reserve applicationId idempotencyKey requestHash =>
      obtain ⟨hreserve, rfl⟩ := hact
      rcases InMemoryIdempotencyStore.reserve_cases hreserve with
        ⟨record, -, -, rfl, rfl⟩ | ⟨hfree, rfl, rfl⟩ | ⟨x, rfl, rfl⟩
      · have hnone : leasing.event (⟨i, s, ⟨.reserve applicationId idempotencyKey requestHash,
            .ok (record.answer requestHash)⟩⟩ : Entry Ports SharedStore ι) = none :=
          if_neg (InMemoryIdempotencyStore.answer_ne_new record requestHash)
        unfold Lease.Leasing.state
        rw [Lease.Reading.events_cons_none hnone]
      · refine .single (.take ?_ rfl (deadlines_write ..) rfl)
        intro deadline hdeadline
        obtain ⟨record, hrecord, rfl⟩ := Option.map_eq_some_iff.mp hdeadline
        exact not_lt.mp (hfree record hrecord)
      · exact .refl
  | complete applicationId idempotencyKey requestHash result cacheResult retentionSeconds =>
      obtain ⟨hcomplete, rfl⟩ := hact
      rcases InMemoryIdempotencyStore.complete_cases hcomplete with
        ⟨-, rfl, rfl⟩ | ⟨-, rfl, rfl⟩ | ⟨x, rfl, rfl⟩
      · exact .single (step_settle howes rfl hintime rfl (deadlines_pop ..))
      · exact .single (step_settle howes rfl hintime rfl (deadlines_write ..))
      · exact .single (.abandon rfl rfl rfl)
  | release applicationId idempotencyKey =>
      obtain ⟨hrelease, rfl⟩ := hact
      obtain ⟨rfl, rfl⟩ := Prod.mk.inj hrelease
      obtain ⟨requestHash, hheld⟩ := howes
      exact .single (step_settle hheld rfl hintime rfl (deadlines_pop ..))
  | _ =>
      cases (show (⟨store', now'⟩ : SharedStore) = s from hact)
      exact .refl

variable {G : SharedStore → List (Entry Ports SharedStore ι) → Prop} {s₀ : SharedStore}

/-- **Callers that settle in time run the lease machine.** -/
theorem leases_run (h : storeMachine.Lawful reservationProtocol none leasing.SettlesInTime
    s₀ s log) :
    Relation.ReflTransGen (Lease.Step expiry) (leasing.state s₀ []) (leasing.state s log) := by
  induction h with
  | init => exact .refl
  | tick _ htick _ ih =>
      refine ih.tail (.wait htick.2 (funext fun key => ?_) rfl)
      exact congrArg (fun store => (store.records key).map (·.expiresAt)) htick.1
  | call _ howes hact hintime ih => exact ih.trans (step_call howes hact hintime).to_reflTransGen

theorem owned (h : storeMachine.Lawful reservationProtocol none leasing.SettlesInTime s₀ s log) :
    Lease.Owned expiry (leasing.state s log) :=
  Lease.owned_of_run rfl (leases_run h)

/-! ## The cached results -/

/-- The last call that moved the key is `completing`, a `complete` with caching of a call that held
the key. -/
structure LastCompletion (applicationId idempotencyKey requestHash : String)
    (result : InferenceResult) (retentionSeconds : Nat) (log : List (Entry Ports SharedStore ι))
    (completing : Entry Ports SharedStore ι) :
    Prop where
  event : completing.event =
    ⟨.complete applicationId idempotencyKey requestHash result true retentionSeconds, .ok ()⟩
  latest : ∃ between before, log = between ++ completing :: before ∧
    leasing.InFlight completing.thread (applicationId, idempotencyKey) before ∧
    ∀ entry ∈ between, ∀ event ∈ leaseEvent entry, ¬ event.Moves (applicationId, idempotencyKey)

theorem LastCompletion.cons {applicationId idempotencyKey requestHash : String}
    {result : InferenceResult} {retentionSeconds : Nat} {completing : Entry Ports SharedStore ι}
    (h : LastCompletion applicationId idempotencyKey requestHash result retentionSeconds log
      completing)
    (hentry : ∀ event ∈ leaseEvent entry, ¬ event.Moves (applicationId, idempotencyKey)) :
    LastCompletion applicationId idempotencyKey requestHash result retentionSeconds
      (entry :: log) completing := by
  obtain ⟨between, before, rfl, hholder, hbetween⟩ := h.latest
  refine ⟨h.event, entry :: between, before, rfl, hholder, ?_⟩
  intro entry' hmem
  rcases List.mem_cons.mp hmem with rfl | hmem
  · exact hentry
  · exact hbetween entry' hmem

/-- The record holds the result of the last completion of its key, until the end of its
retention. -/
def Cached (applicationId idempotencyKey : String) (record : InMemoryIdempotencyStore.Record)
    (log : List (Entry Ports SharedStore ι)) : Prop :=
  ∃ result retentionSeconds completing,
    LastCompletion applicationId idempotencyKey record.requestHash result retentionSeconds log
      completing ∧
      record.result = some result ∧
      record.expiresAt = completing.before.now + retentionSeconds * 1000000

theorem Cached.cons {applicationId idempotencyKey : String}
    {record : InMemoryIdempotencyStore.Record} (h : Cached applicationId idempotencyKey record log)
    (hentry : ∀ event ∈ leaseEvent entry, ¬ event.Moves (applicationId, idempotencyKey)) :
    Cached applicationId idempotencyKey record (entry :: log) := by
  obtain ⟨result, retentionSeconds, completing, hlast, hresult, hexpiresAt⟩ := h
  exact ⟨result, retentionSeconds, completing, hlast.cons hentry, hresult, hexpiresAt⟩

/-- Every record that is not in progress is cached. -/
def Written (s : SharedStore) (log : List (Entry Ports SharedStore ι)) : Prop :=
  ∀ applicationId idempotencyKey record,
    s.store.records (applicationId, idempotencyKey) = some record →
    record.inProgress = false → Cached applicationId idempotencyKey record log

theorem Written.aside (h : Written s log) (hstore : s'.store = s.store)
    (hentry : ∀ event ∈ leaseEvent entry, ∀ key, ¬ event.Moves key) :
      Written s' (entry :: log) := by
  intro applicationId idempotencyKey record hrecord hdone
  rw [hstore] at hrecord
  exact (h applicationId idempotencyKey record hrecord hdone).cons fun event hevent =>
    hentry event hevent _

/-- A call that moves one key: it is enough to look at the record it leaves there. -/
theorem Written.moved (h : Written s log) {applicationId idempotencyKey : String}
    {left : Option InMemoryIdempotencyStore.Record}
    (hstore : s'.store.records =
      Function.update s.store.records (applicationId, idempotencyKey) left)
    (hentry : ∀ event ∈ leaseEvent entry, ∀ key, event.Moves key →
      key = (applicationId, idempotencyKey))
    (hleft : ∀ record ∈ left, record.inProgress = false →
      Cached applicationId idempotencyKey record (entry :: log)) :
    Written s' (entry :: log) := by
  intro applicationId' idempotencyKey' record hrecord hdone
  rw [hstore] at hrecord
  by_cases hkey : (applicationId', idempotencyKey') = (applicationId, idempotencyKey)
  · obtain ⟨rfl, rfl⟩ := Prod.mk.inj hkey
    rw [Function.update_self] at hrecord
    exact hleft record hrecord hdone
  · rw [Function.update_of_ne hkey] at hrecord
    exact (h _ _ record hrecord hdone).cons fun event hevent hmoves =>
      hkey (hentry event hevent _ hmoves)

theorem written_step (howes : reservationProtocol.owes (reservationProtocol.phase none i log) port)
    (hact : storeMachine.act s port reply s') (h : Written s log) :
      Written s' (⟨i, s, ⟨port, reply⟩⟩ :: log) := by
  obtain ⟨store', now'⟩ := s'
  cases port with
  | reserve applicationId idempotencyKey requestHash =>
      obtain ⟨hreserve, rfl⟩ := hact
      rcases InMemoryIdempotencyStore.reserve_cases hreserve with
        ⟨record, -, -, rfl, rfl⟩ | ⟨hfree, rfl, rfl⟩ | ⟨x, rfl, rfl⟩
      · refine h.aside rfl fun event hevent => ?_
        have hnone : leaseEvent (⟨i, s, ⟨.reserve applicationId idempotencyKey requestHash,
            .ok (record.answer requestHash)⟩⟩ : Entry Ports SharedStore ι) = none :=
          if_neg (InMemoryIdempotencyStore.answer_ne_new record requestHash)
        rw [hnone] at hevent
        cases hevent
      · refine h.moved rfl ?_ ?_
        · rintro event ⟨⟩ key hmoves
          exact hmoves.symm
        · rintro record ⟨⟩ hdone
          cases hdone
      · exact h.aside rfl fun event hevent => by cases hevent
  | complete applicationId idempotencyKey requestHash result cacheResult retentionSeconds =>
      obtain ⟨hcomplete, rfl⟩ := hact
      rcases InMemoryIdempotencyStore.complete_cases hcomplete with
        ⟨-, rfl, rfl⟩ | ⟨rfl, rfl, rfl⟩ | ⟨x, rfl, rfl⟩
      · refine h.moved rfl ?_ fun record hrecord => by cases hrecord
        rintro event ⟨⟩ key hmoves
        exact hmoves.symm
      · refine h.moved rfl ?_ ?_
        · rintro event ⟨⟩ key hmoves
          exact hmoves.symm
        · rintro record ⟨⟩ -
          exact ⟨result, retentionSeconds, _,
            ⟨rfl, [], log, rfl, inFlight_of_held howes, by simp⟩, rfl, rfl⟩
      · refine h.aside rfl ?_
        rintro event ⟨⟩ key hmoves
        exact hmoves
  | release applicationId idempotencyKey =>
      obtain ⟨hrelease, rfl⟩ := hact
      obtain ⟨rfl, rfl⟩ := Prod.mk.inj hrelease
      refine h.moved rfl ?_ fun record hrecord => by cases hrecord
      rintro event ⟨⟩ key hmoves
      exact hmoves.symm
  | _ =>
      cases (show (⟨store', now'⟩ : SharedStore) = s from hact)
      exact h.aside rfl fun event hevent => by cases hevent

/-- **A result in the store is the one its key was last completed with**, in every run. -/
theorem written (hstart : s₀.store.records = fun _ => none)
    (h : storeMachine.Lawful reservationProtocol none G s₀ s log) : Written s log := by
  induction h with
  | init =>
      intro applicationId idempotencyKey record hrecord
      rw [hstart] at hrecord
      cases hrecord
  | tick _ htick _ ih =>
      intro applicationId idempotencyKey record hrecord
      rw [htick.1] at hrecord
      exact ih applicationId idempotencyKey record hrecord
  | call _ howes hact _ ih => exact written_step howes hact ih

/-! ## The clock -/

theorem act_now (hact : storeMachine.act s port reply s') : s'.now = s.now := by
  cases port with
  | reserve => exact hact.2
  | complete => exact hact.2
  | release => exact hact.2
  | _ => exact congrArg SharedStore.now hact

theorem now_le (h : storeMachine.Lawful reservationProtocol none G s₀ s log) :
    ∀ entry ∈ log, entry.before.now ≤ s.now := by
  induction h with
  | init => simp
  | tick _ htick _ ih => exact fun entry hentry => (ih entry hentry).trans htick.2
  | call _ _ hact _ ih =>
      intro entry hentry
      rw [act_now hact]
      rcases List.mem_cons.mp hentry with rfl | hentry
      · exact le_refl _
      · exact ih entry hentry

end SharedStore

end ModelRouter
