import ModelRouter.Adapters.DynamoDbIdempotencyStore
import ModelRouter.Application.ReservationProtocol
import ModelRouter.Lib.LeaseLog
import Mathlib.Data.Int.ConditionallyCompleteOrder

/-!
# Reservations in a table

Callers share one table (`tableMachine`); each call of the store is several operations of the table,
between which other callers may run. `Phase` is where a caller stands between two operations.

* `spec_overDynamoDb` : a use case that keeps the reservation protocol keeps `tableProtocol` over
  the store;
* `leases_run` : callers that settle in time and whose last look-up always finds an item run the
  lease machine.
-/

namespace ModelRouter
open Effects Prog DynamoDbIdempotencyStore

/-! ## The protocol of a caller -/

def DynamoDbIdempotencyStore.Item.reservation (item : Item) : HeldReservation where
  applicationId := item.pk
  idempotencyKey := item.sk
  requestHash := item.requestHash

/-- `lost` counts the attempts of a `reserve` whose put was refused and whose look-up found
nothing. -/
inductive Phase where
  | ready (lost : Nat)
  | read (now : Int) (lost : Nat)
  | refused (reservation : HeldReservation) (lost : Nat)
  /-- The `reserve` was answered NEW; `written` tells whether its own put wrote the reservation. -/
  | held (reservation : HeldReservation) (written : Bool)
deriving DecidableEq

namespace Phase

/-- The key of a reservation the caller has written. -/
def writtenKey : Phase → Option (String × String)
  | held reservation true => some reservation.key
  | _ => none

def afterPut (phase : Phase) (item : Item) : Except PyException Unit → Phase
  | .ok _ => .held item.reservation true
  | .error x => match phase with
    | read _ lost => if x = conditionalCheckFailed then .refused item.reservation lost else .ready 0
    | phase => phase

def afterGet (phase : Phase) : Except PyException (Option Item) → Phase
  | .ok none => match phase with
    | refused reservation lost =>
      if lost + 1 < maxReserveAttempts then .ready (lost + 1) else .held reservation false
    | phase => phase
  | _ => match phase with
    | refused _ _ => .ready 0
    | phase => phase

end Phase

/-- What a caller owes at each operation of the table. -/
def tableProtocol (store : DynamoDbIdempotencyStore) : Monitor Backend Phase where
  owes phase call := match call with
    | .putItem item (some now) =>
      (∃ lost, phase = .read now lost) ∧
        item = store.reservedItem item.pk item.sk item.requestHash now
    | .putItem item none =>
        (∃ written, phase = .held item.reservation written) ∧ item.status = .completed
    | .getItem pk sk =>
        ∃ reservation lost, phase = .refused reservation lost ∧ reservation.key = (pk, sk)
    | .deleteItem pk sk =>
        ∃ reservation written, phase = .held reservation written ∧ reservation.key = (pk, sk)
    | _ => True
  relies _ call reply := match call with
    | .clockSeconds => ∃ clock, reply = .ok clock
    | _ => True
  next phase call reply := match call, reply with
    | .clockSeconds, .ok clock => match phase with
      | .ready lost => .read (wholeSeconds clock) lost
      | phase => phase
    | .putItem item (some _), reply => phase.afterPut item reply
    | .putItem _ none, _ => .ready 0
    | .deleteItem _ _, _ => .ready 0
    | .getItem _ _, reply => phase.afterGet reply
    | _, _ => phase

/-- What a reply does to the phase of its caller. -/
inductive PhaseStep : Phase → Event Backend → Phase → Prop
  | stays (phase : Phase) (event : Event Backend) : PhaseStep phase event phase
  | readies (phase : Phase) (event : Event Backend) (lost : Nat) :
    PhaseStep phase event (.ready lost)
  | reads (lost : Nat) (clock : Int) :
      PhaseStep (.ready lost) ⟨.clockSeconds, .ok clock⟩ (.read (wholeSeconds clock) lost)
  | refuses (reading : Int) (lost : Nat) (item : Item) (event : Event Backend) :
      PhaseStep (.read reading lost) event (.refused item.reservation lost)
  | writes (phase : Phase) (item : Item) (now : Int) :
      PhaseStep phase ⟨.putItem item (some now), .ok ()⟩ (.held item.reservation true)
  | falls (reservation : HeldReservation) (lost : Nat) (pk sk : String)
      (hlast : maxReserveAttempts ≤ lost + 1) :
      PhaseStep (.refused reservation lost) ⟨.getItem pk sk, .ok none⟩ (.held reservation false)

theorem phase_step (store : DynamoDbIdempotencyStore) (phase : Phase) (event : Event Backend) :
    PhaseStep phase event ((tableProtocol store).next phase event.call event.reply) := by
  obtain ⟨call, reply⟩ := event
  cases call with
  | ofPort port => exact .stays _ _
  | clockSeconds =>
      cases reply with
      | error x => exact .stays _ _
      | ok clock =>
          cases phase with
          | ready lost => exact .reads lost clock
          | _ => exact .stays _ _
  | putItem item condition =>
      cases condition with
      | none => exact .readies _ _ 0
      | some now =>
          cases reply with
          | ok _ => exact .writes _ item now
          | error x =>
              cases phase with
              | read reading lost =>
                  show PhaseStep _ _ (if x = conditionalCheckFailed
                      then .refused item.reservation lost else .ready 0)
                  split
                  · exact .refuses _ _ _ _
                  · exact .readies _ _ 0
              | _ => exact .stays _ _
  | getItem pk sk =>
      cases reply with
      | error x =>
          cases phase with
          | refused reservation lost => exact .readies _ _ 0
          | _ => exact .stays _ _
      | ok existing =>
          cases phase with
          | refused reservation lost =>
              cases existing with
              | some existing => exact .readies _ _ 0
              | none =>
                  show PhaseStep _ _ (if lost + 1 < maxReserveAttempts then .ready (lost + 1)
                      else .held reservation false)
                  split
                  · exact .readies _ _ _
                  · exact .falls reservation lost pk sk (by omega)
          | _ => cases existing <;> exact .stays _ _
  | deleteItem pk sk => exact .readies _ _ 0

namespace DynamoDbIdempotencyStore

variable {store : DynamoDbIdempotencyStore} {applicationId idempotencyKey requestHash : String}

/-- Where a caller stands when `reserve` has ended. -/
def Reserved (reservation : HeldReservation) (out : Except PyException IdempotencyReservation)
    (phase : Phase) : Prop :=
  match out with
  | .ok answer =>
      if answer.outcome = .new then ∃ written, phase = .held reservation written
        else phase = .ready 0
  | .error _ => phase = .ready 0

/-- Where a caller stands when an attempt has ended, of which `lost` went before. -/
def Tried (reservation : HeldReservation) (lost : Nat)
    (out : Except PyException (Option IdempotencyReservation)) (phase : Phase) : Prop :=
  match out with
  | .ok none =>
      phase = if lost + 1 < maxReserveAttempts then .ready (lost + 1) else .held reservation false
  | .ok (some answer) => Reserved reservation (.ok answer) phase
  | .error _ => phase = .ready 0

theorem answerItem_ne_new {existing : Item} {answer : IdempotencyReservation}
    (h : store.answerItem requestHash existing = .ok answer) : answer.outcome ≠ .new := by
  unfold answerItem at h
  split at h
  · cases h
    simp
  · split at h
    · cases h
      simp
    · split at h
      · cases h
      · cases hresult : store.modelValidateJson _ with
        | error x =>
            rw [hresult] at h
            cases h
        | ok cachedResult =>
            rw [hresult] at h
            cases h
            simp

theorem spec_lookUp (lost : Nat) :
    Spec (tableProtocol store) (store.lookUp applicationId idempotencyKey requestHash)
      (Tried { applicationId, idempotencyKey, requestHash } lost)
      (.refused { applicationId, idempotencyKey, requestHash } lost) := by
  refine Spec.performBind ⟨_, lost, rfl, rfl⟩ (fun existing _ => ?_) fun _ _ => rfl
  cases existing with
  | none => exact rfl
  | some existing =>
      refine Spec.ofExceptBind (fun answer hanswer => ?_) fun _ _ => rfl
      show Reserved _ (.ok answer) (.ready 0)
      rw [Reserved, if_neg (answerItem_ne_new hanswer)]

theorem spec_tryReserve (lost : Nat) :
    Spec (tableProtocol store) (store.tryReserve applicationId idempotencyKey requestHash)
      (Tried { applicationId, idempotencyKey, requestHash } lost) (.ready lost) := by
  refine Spec.performBind trivial (fun clock _ => ?_) fun x hrelies => ?_
  · refine Spec.tryPerformBind ⟨⟨lost, rfl⟩, rfl⟩ fun reply _ => ?_
    cases reply with
    | ok _ => exact ⟨true, rfl⟩
    | error x =>
        show Spec _ (if x = conditionalCheckFailed then _ else _) _ (if x = conditionalCheckFailed
            then _ else _)
        by_cases hrefused : x = conditionalCheckFailed
        · rw [if_pos hrefused, if_pos hrefused]
          exact spec_lookUp lost
        · rw [if_neg hrefused, if_neg hrefused]
          exact rfl
  · obtain ⟨clock, hclock⟩ := hrelies
    cases hclock

/-- A `reserve` with attempts left is ready for the next; one without has fallen through. -/
theorem spec_reserveAttempts (attempts lost : Nat)
    (hattempts : lost + attempts = maxReserveAttempts) :
    Spec (tableProtocol store)
      (store.reserveAttempts applicationId idempotencyKey requestHash attempts)
      (Reserved { applicationId, idempotencyKey, requestHash })
      (if 0 < attempts then .ready lost
        else .held { applicationId, idempotencyKey, requestHash } false) := by
  induction attempts generalizing lost with
  | zero => exact ⟨false, rfl⟩
  | succ attempts ih =>
      rw [if_pos (Nat.succ_pos _)]
      refine Spec.bind (spec_tryReserve lost) (fun answer phase htried => ?_) fun _ _ h => h
      cases answer with
      | some answer => exact htried
      | none =>
          have hphase : phase = if 0 < attempts then .ready (lost + 1)
              else .held { applicationId, idempotencyKey, requestHash } false := by
            refine Eq.trans htried ?_
            by_cases hleft : 0 < attempts
            · rw [if_pos hleft, if_pos (by omega)]
            · rw [if_neg hleft, if_neg (by omega)]
          rw [hphase]
          exact ih (lost + 1) (by omega)

theorem spec_reserve :
    Spec (tableProtocol store) (store.reserve applicationId idempotencyKey requestHash)
      (Reserved { applicationId, idempotencyKey, requestHash }) (.ready 0) :=
  spec_reserveAttempts maxReserveAttempts 0 rfl

theorem spec_release (reservation : HeldReservation) (written : Bool)
    (hkey : reservation.key = (applicationId, idempotencyKey)) :
    Spec (tableProtocol store) (release applicationId idempotencyKey)
      (fun _ phase => phase = .ready 0) (.held reservation written) :=
  Spec.perform ⟨reservation, written, rfl, hkey⟩ fun _ _ => rfl

theorem spec_complete (result : InferenceResult) (cacheResult : Bool) (retentionSeconds : Nat)
    (written : Bool) :
    Spec (tableProtocol store)
      (store.complete applicationId idempotencyKey requestHash result cacheResult retentionSeconds)
      (fun _ phase => phase = .ready 0)
        (.held { applicationId, idempotencyKey, requestHash } written) := by
  unfold complete
  split
  · exact spec_release _ written rfl
  · refine Spec.performBind trivial (fun clock _ => ?_) fun x hrelies => ?_
    · exact Spec.perform ⟨⟨written, rfl⟩, rfl⟩ fun _ _ => rfl
    · obtain ⟨clock, hclock⟩ := hrelies
      cases hclock

/-! ## Use cases over the store -/

/-- The reservation a caller holds, seen from its use case and from the table. -/
def Stands : Option HeldReservation → Phase → Prop
  | none, phase => phase = .ready 0
  | some reservation, phase => ∃ written, phase = .held reservation written

theorem spec_carryOut (port : Port) (held : Option HeldReservation) (phase : Phase)
    (hstands : Stands held phase) (howes : reservationProtocol.owes held port) :
    Spec (tableProtocol store) (store.carryOut port)
      (fun out phase' => ∃ reply, out = .ok reply ∧ reservationProtocol.relies held port reply ∧
        Stands (reservationProtocol.next held port reply) phase') phase := by
  cases port with
  | reserve applicationId idempotencyKey requestHash =>
      have hnone : held = none := howes
      subst hnone
      cases hstands
      refine Spec.attempt (spec_reserve.mono fun out phase' hreserved => ⟨out, rfl, trivial, ?_⟩)
      cases out with
      | error x => exact hreserved
      | ok answer =>
          rw [Reserved] at hreserved
          rw [next_reserve]
          by_cases hnew : answer.outcome = .new
          · rw [if_pos hnew] at hreserved ⊢
            exact hreserved
          · rw [if_neg hnew] at hreserved ⊢
            exact hreserved
  | complete applicationId idempotencyKey requestHash result cacheResult retentionSeconds =>
      have hheld : held = some { applicationId, idempotencyKey, requestHash } := howes
      subst hheld
      obtain ⟨written, rfl⟩ := hstands
      exact Spec.attempt ((spec_complete result cacheResult retentionSeconds written).mono
        fun out phase' hphase => ⟨out, rfl, trivial, hphase⟩)
  | release applicationId idempotencyKey =>
      obtain ⟨requestHash, rfl⟩ := howes
      obtain ⟨written, rfl⟩ := hstands
      exact Spec.attempt ((spec_release _ written rfl).mono fun out phase' hphase =>
        ⟨out, rfl, trivial, hphase⟩)
  | _ => exact ⟨trivial, fun reply _ => ⟨reply, rfl, trivial, hstands⟩⟩

/-- **A use case that keeps the reservation protocol keeps the table protocol over the store.** -/
theorem spec_overDynamoDb {α : Type} {useCase : Prog Ports α}
    {Q : Except PyException α → Option HeldReservation → Prop}
    (h : Spec reservationProtocol useCase Q none) :
    Spec (tableProtocol store) (store.overDynamoDb useCase)
      (fun _ phase => ∃ held, Stands held phase) (.ready 0) := by
  have hover := @Spec.interpret Ports α _ _ Q Backend Phase _ Stands id store.carryOut spec_carryOut
      useCase none (.ready 0)
    h rfl
  exact hover.mono fun _ _ ⟨_, held, _, _, hstands⟩ => ⟨held, hstands⟩

end DynamoDbIdempotencyStore

/-! ## The machine -/

/-- An operation of the table that raised without an effect. -/
def Failed {α : Type} (reply : Except PyException α) : Prop :=
  ∃ x, reply = .error x ∧ x ≠ conditionalCheckFailed

/-- The table carries an operation out or fails without an effect; every port may answer
anything. -/
def tableMachine : Machine Backend TableState where
  act s call reply s' := match call with
    | .ofPort _ => s' = s
    | .clockSeconds => reply = .ok s.now ∧ s' = s
    | .putItem item condition => s.putItem item condition = (reply, s') ∨ Failed reply ∧ s' = s
    | .getItem pk sk => (reply = .ok (s.table (pk, sk)) ∨ Failed reply) ∧ s' = s
    | .deleteItem pk sk => reply = .ok () ∧ s' = s.set (pk, sk) none ∨ Failed reply ∧ s' = s
  tick s s' := s'.table = s.table ∧ s.now ≤ s'.now

namespace DynamoDbIdempotencyStore.TableState

variable {ι : Type}

/-- What an operation of the table does to the leases. -/
def leaseEvent (entry : Entry Backend TableState ι) :
    Option (Lease.Event (String × String) ι Int) :=
  match entry.event with
  | ⟨.putItem item (some _), .ok _⟩ => some (.take entry.thread item.key item.expiresAt)
  | ⟨.putItem item none, .ok _⟩ => some (.settle entry.thread item.key)
  | ⟨.putItem _ none, .error _⟩ => some (.abandon entry.thread)
  | ⟨.deleteItem pk sk, .ok _⟩ => some (.settle entry.thread (pk, sk))
  | ⟨.deleteItem _ _, .error _⟩ => some (.abandon entry.thread)
  | _ => none

theorem leaseEvent_actor (entry : Entry Backend TableState ι) :
    ∀ event ∈ leaseEvent entry, event.actor = entry.thread := by
  intro event h
  unfold leaseEvent at h
  split at h
  all_goals
    cases h
    try rfl

/-- An item has expired past its `expiresAt`. -/
def expiry : Lease.Expiry Int where
  Expired deadline now := deadline < now
  mono := lt_of_lt_of_le

/-- An item that was put under the condition is a lease of its key. -/
def leasing : Lease.Leasing Backend TableState (String × String) ι Int where
  event := leaseEvent
  actor := leaseEvent_actor
  expiry := expiry
  now s := wholeSeconds s.now
  deadline s key := (s.table key).map (·.expiresAt)

instance : DecidableRel
    (leasing : Lease.Leasing Backend TableState (String × String) ι Int).expiry.Expired :=
  fun deadline now => inferInstanceAs (Decidable (deadline < now))

variable {store : DynamoDbIdempotencyStore}

theorem leasing_agrees :
    (leasing : Lease.Leasing Backend TableState (String × String) ι Int).Agrees
      (tableProtocol store)
      Phase.writtenKey := by
  rintro phase ⟨i, s, call, reply⟩
  cases call with
  | ofPort port => rfl
  | clockSeconds => cases reply <;> cases phase <;> rfl
  | putItem item condition =>
      cases condition with
      | none => cases reply <;> rfl
      | some now =>
          cases reply with
          | ok _ => rfl
          | error x =>
              cases phase with
              | read now lost =>
                  show (if x = conditionalCheckFailed then Phase.refused _ lost
                      else .ready 0).writtenKey = none
                  split <;> rfl
              | _ => rfl
  | getItem pk sk =>
      cases reply with
      | error x => cases phase <;> rfl
      | ok existing =>
          cases existing with
          | some existing => cases phase <;> rfl
          | none =>
              cases phase with
              | refused reservation lost =>
                  show (if lost + 1 < maxReserveAttempts then Phase.ready _
                      else .held reservation false).writtenKey = none
                  split <;> rfl
              | _ => rfl
  | deleteItem pk sk => cases reply <;> rfl

variable [DecidableEq ι]

/-- A look-up that answers. -/
def looksUp : Event Backend → Bool
  | ⟨.getItem _ _, .ok _⟩ => true
  | _ => false

/-- If the caller looks up in its last attempt, the item is in the table. -/
def FindsItem (phase : Phase) (event : Event Backend) (table : String × String → Option Item) :
    Prop :=
  match phase with
  | .refused reservation lost =>
    looksUp event = true → maxReserveAttempts ≤ lost + 1 → table reservation.key ≠ none
  | _ => True

/-- Whenever the look-up of a `reserve`'s last attempt answers, the item is in the table. -/
def LastLookUpFinds (store : DynamoDbIdempotencyStore) (_ : TableState) :
    List (Entry Backend TableState ι) → Prop
  | [] => True
  | entry :: past =>
    FindsItem ((tableProtocol store).phase (.ready 0) entry.thread past) entry.event
      entry.before.table

theorem own_step (store : DynamoDbIdempotencyStore) (i : ι) (s : TableState) (event : Event Backend)
    (log : List (Entry Backend TableState ι)) :
    PhaseStep ((tableProtocol store).phase (.ready 0) i log) event
      ((tableProtocol store).phase (.ready 0) i (⟨i, s, event⟩ :: log)) := by
  rw [Monitor.phase_cons_own]
  exact phase_step store _ event

variable {s s' s₀ : TableState} {log : List (Entry Backend TableState ι)} {i : ι}
  {call : BackendCall} {reply : Except PyException call.Answer}
  {G : TableState → List (Entry Backend TableState ι) → Prop}

theorem inFlight_of_written {reservation : HeldReservation}
    (h : (tableProtocol store).phase (.ready 0) i log = .held reservation true) :
    leasing.InFlight i reservation.key log := by
  have hkey : ((tableProtocol store).phase (.ready 0) i log).writtenKey = some reservation.key := by
    rw [h]
    rfl
  exact @Lease.Reading.Agrees.holding _ _ _ _ _ _ _ _ _ _ _ leasing_agrees (.ready 0) rfl _ _ hkey

/-! ## The clock -/

theorem wholeSeconds_mono {now later : Int} (h : now ≤ later) :
    wholeSeconds now ≤ wholeSeconds later :=
  Int.tdiv_le_tdiv (by decide) h

theorem act_now (hact : tableMachine.act s call reply s') : s'.now = s.now := by
  cases call with
  | ofPort port => exact congrArg TableState.now hact
  | clockSeconds => exact congrArg TableState.now hact.2
  | putItem item condition =>
      rcases hact with hput | ⟨-, rfl⟩
      · unfold putItem at hput
        split at hput
        · rw [← (Prod.mk.inj hput).2]
          rfl
        · rw [← (Prod.mk.inj hput).2]
      · rfl
  | getItem pk sk => exact congrArg TableState.now hact.2
  | deleteItem pk sk =>
      rcases hact with ⟨-, rfl⟩ | ⟨-, rfl⟩ <;> rfl

theorem read_le (h : tableMachine.Lawful (tableProtocol store) (.ready 0) G s₀ s log) {now : Int}
    {lost : Nat} (hread : (tableProtocol store).phase (.ready 0) i log = .read now lost) :
      now ≤ wholeSeconds s.now := by
  induction h with
  | init => cases hread
  | tick _ htick _ ih => exact (ih hread).trans (wholeSeconds_mono htick.2)
  | @call s s' log j call reply _ _ hact _ ih =>
      rw [act_now hact]
      by_cases hi : j = i
      · subst hi
        have hstep := own_step store j s ⟨call, reply⟩ log
        rw [hread] at hstep
        generalize hphase : (tableProtocol store).phase (.ready 0) j log = phase at hstep
        cases hstep with
        | stays => exact ih hphase
        | reads lost clock =>
            rw [← Except.ok.inj hact.1]
      · rw [Monitor.phase_cons_of_ne hi] at hread
        exact ih hread

/-! ## Falling through -/

theorem not_fallen (h : tableMachine.Lawful (tableProtocol store) (.ready 0)
    (LastLookUpFinds store) s₀ s log) (reservation : HeldReservation) :
      (tableProtocol store).phase (.ready 0) i log ≠ .held reservation false := by
  intro hfallen
  induction h with
  | init => cases hfallen
  | tick _ _ _ ih => exact ih hfallen
  | @call s s' log j call reply _ howes hact hfinds ih =>
      by_cases hi : j = i
      · subst hi
        have hstep := own_step store j s ⟨call, reply⟩ log
        rw [hfallen] at hstep
        generalize hphase : (tableProtocol store).phase (.ready 0) j log = phase at hstep
        cases hstep with
        | stays => exact ih hphase
        | falls reservation lost pk sk hlast =>
            obtain ⟨reservation', lost', hrefused, hkey⟩ := howes
            obtain ⟨rfl, -⟩ := Phase.refused.inj (hphase.symm.trans hrefused)
            rw [LastLookUpFinds, hphase] at hfinds
            have hfound : s.table reservation.key ≠ none := hfinds rfl hlast
            rw [hkey] at hfound
            rcases hact.1 with hreply | ⟨x, hreply, -⟩
            · exact hfound (Except.ok.inj hreply).symm
            · cases hreply
      · rw [Monitor.phase_cons_of_ne hi] at hfallen
        exact ih hfallen

/-! ## The put of a caller -/

/-- The put of the call wrote its reservation. -/
def Wrote (store : DynamoDbIdempotencyStore) (i : ι) (reservation : HeldReservation)
    (log : List (Entry Backend TableState ι)) : Prop :=
  ∃ entry ∈ log, entry.thread = i ∧ ∃ now, entry.event = ⟨.putItem
    (store.reservedItem reservation.applicationId reservation.idempotencyKey reservation.requestHash
      now) (some now),
    .ok ()⟩

theorem wrote_of_written (h : tableMachine.Lawful (tableProtocol store) (.ready 0) G s₀ s log)
    {reservation : HeldReservation}
    (hwritten : (tableProtocol store).phase (.ready 0) i log = .held reservation true) :
    Wrote store i reservation log := by
  induction h with
  | init => cases hwritten
  | tick _ _ _ ih => exact ih hwritten
  | @call s s' log j call reply _ howes hact _ ih =>
      have hearlier : Wrote store i reservation log →
          Wrote store i reservation (⟨j, s, ⟨call, reply⟩⟩ :: log) := by
        rintro ⟨entry, hentry, hwrote⟩
        exact ⟨entry, List.mem_cons_of_mem _ hentry, hwrote⟩
      by_cases hi : j = i
      · subst hi
        have hstep := own_step store j s ⟨call, reply⟩ log
        rw [hwritten] at hstep
        generalize hphase : (tableProtocol store).phase (.ready 0) j log = phase at hstep
        cases hstep with
        | stays => exact hearlier (ih hphase)
        | writes _ item now =>
            obtain ⟨-, hitem⟩ := howes
            exact ⟨_, List.mem_cons_self, rfl, now, by rw [hitem]; rfl⟩
      · rw [Monitor.phase_cons_of_ne hi] at hwritten
        exact hearlier (ih hwritten)

/-! ## The table runs the lease machine -/

theorem deadlines_set (s : TableState) (key : String × String) (item : Option Item) :
    (fun key' => ((s.set key item).table key').map (·.expiresAt)) =
      Function.update (fun key' => (s.table key').map (·.expiresAt)) key
        (item.map (·.expiresAt)) := by
  funext key'
  by_cases hkey : key' = key
  · subst hkey
    rw [set_table_self, Function.update_self]
  · rw [set_table_of_ne hkey, Function.update_of_ne hkey]

theorem step_settle {reservation : HeldReservation} {left : Option Item} {event : Event Backend}
    (hheld : (tableProtocol store).phase (.ready 0) i log = .held reservation true)
    (hentry : leaseEvent ⟨i, s, event⟩ = some (.settle i reservation.key))
    (hintime : leasing.SettlesInTime s' (⟨i, s, event⟩ :: log))
    (hs' : s' = s.set reservation.key left) :
    Lease.Step expiry (leasing.state s log) (leasing.state s' (⟨i, s, event⟩ :: log)) := by
  obtain ⟨deadline, hholding⟩ := inFlight_of_written hheld
  have hwindow : Lease.InWindow expiry (leasing.state s log) i reservation.key deadline :=
    ⟨hholding, hintime _ hentry trivial _ hholding⟩
  subst hs'
  exact .settle hwindow rfl (deadlines_set ..) (Lease.Reading.events_cons_some hentry)

/-- What an operation is for the leases, when every settlement is in time and nobody falls
through. -/
theorem step_call (h : tableMachine.Lawful (tableProtocol store) (.ready 0)
    (LastLookUpFinds store) s₀ s log)
    (howes : (tableProtocol store).owes ((tableProtocol store).phase (.ready 0) i log) call)
    (hact : tableMachine.act s call reply s')
    (hintime : leasing.SettlesInTime s' (⟨i, s, ⟨call, reply⟩⟩ :: log)) :
    Relation.ReflGen (Lease.Step expiry) (leasing.state s log)
      (leasing.state s' (⟨i, s, ⟨call, reply⟩⟩ :: log)) := by
  have hwritten : ∀ reservation written,
      (tableProtocol store).phase (.ready 0) i log = .held reservation written →
      (tableProtocol store).phase (.ready 0) i log = .held reservation true := by
    intro reservation written hheld
    cases written with
    | true => exact hheld
    | false => exact absurd hheld (not_fallen h reservation)
  cases call with
  | ofPort port =>
      cases (show s' = s from hact)
      exact .refl
  | clockSeconds =>
      obtain ⟨rfl, rfl⟩ := hact
      exact .refl
  | putItem item condition =>
      cases condition with
      | some now =>
          obtain ⟨⟨lost, hread⟩, -⟩ := howes
          rcases hact with hput | ⟨⟨x, rfl, -⟩, rfl⟩
          · unfold putItem at hput
            split at hput
            · rename_i hallows
              obtain ⟨rfl, rfl⟩ := Prod.mk.inj hput
              refine .single (.take ?_ rfl (deadlines_set ..) rfl)
              intro deadline hdeadline
              obtain ⟨existing, hexisting, rfl⟩ := Option.map_eq_some_iff.mp hdeadline
              exact lt_of_lt_of_le (hallows now rfl existing hexisting) (read_le h hread)
            · obtain ⟨rfl, rfl⟩ := Prod.mk.inj hput
              exact .refl
          · exact .refl
      | none =>
          obtain ⟨⟨written, hheld⟩, -⟩ := howes
          rcases hact with hput | ⟨⟨x, rfl, -⟩, rfl⟩
          · unfold putItem at hput
            rw [if_pos (by simp)] at hput
            obtain ⟨rfl, rfl⟩ := Prod.mk.inj hput
            exact .single (step_settle (hwritten _ _ hheld) rfl hintime rfl)
          · exact .single (.abandon rfl rfl rfl)
  | getItem pk sk =>
      obtain ⟨-, rfl⟩ := hact
      cases reply <;> exact .refl
  | deleteItem pk sk =>
      obtain ⟨reservation, written, hheld, hkey⟩ := howes
      rcases hact with ⟨rfl, rfl⟩ | ⟨⟨x, rfl, -⟩, rfl⟩
      · refine .single (step_settle (hwritten _ _ hheld) ?_ hintime (by rw [hkey]))
        rw [hkey]
        rfl
      · exact .single (.abandon rfl rfl rfl)

/-- **Callers that settle in time and do not fall through run the lease machine.** -/
theorem leases_run (h : tableMachine.Lawful (tableProtocol store) (.ready 0)
    (fun s log => leasing.SettlesInTime s log ∧ LastLookUpFinds store s log) s₀ s log) :
    Relation.ReflTransGen (Lease.Step expiry) (leasing.state s₀ []) (leasing.state s log) := by
  induction h with
  | init => exact .refl
  | tick _ htick _ ih =>
      refine ih.tail (.wait (wholeSeconds_mono htick.2) (funext fun key => ?_) rfl)
      exact congrArg (fun table => (table key).map (·.expiresAt)) htick.1
  | call h howes hact hG ih =>
      have hfinds := h.mono ⟨trivial, trivial⟩ trivial (fun _ _ _ _ _ _ _ hG =>
          hG.2) fun _ _ _ hG _ => hG
      exact ih.trans (step_call hfinds howes hact hG.1).to_reflTransGen

theorem owned (h : tableMachine.Lawful (tableProtocol store) (.ready 0)
    (fun s log => leasing.SettlesInTime s log ∧ LastLookUpFinds store s log) s₀ s log) :
    Lease.Owned expiry (leasing.state s log) :=
  Lease.owned_of_run rfl (leases_run h)

end DynamoDbIdempotencyStore.TableState

end ModelRouter
