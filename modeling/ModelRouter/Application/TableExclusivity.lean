import ModelRouter.Application.DynamoDbReservations
import ModelRouter.Application.World

/-!
# Exclusivity over the table

Any number of `invoke` calls run over `DynamoDbIdempotencyStore`. As long as every call in flight is
inside its window and the look-up of a last attempt finds an item, a call whose `reserve` answers
NEW has written its reservation and is the only one of its key (`reserve_exclusive`). Without the
second condition `reserve` falls through to NEW: in the interleaving `lostTwice` a call is answered
NEW that has written nothing, next to one that has (`reserve_not_exclusive`).
-/

namespace ModelRouter
open Effects Prog DynamoDbIdempotencyStore TableState

namespace DynamoDbIdempotencyStore.TableState

variable {ι : Type} [DecidableEq ι]

/-- The calls before their first operation, over an empty table. -/
def start (store : DynamoDbIdempotencyStore) (orchestrators : ι → InvocationOrchestrator)
    (requests : ι → InferenceRequest) (now : Int) :
      Config Backend TableState ι InferenceResult where
  shared := { now }
  threads i := store.overDynamoDb ((orchestrators i).invoke (requests i))
  log := []

variable {store : DynamoDbIdempotencyStore} {s s₀ : TableState}
  {log : List (Entry Backend TableState ι)}

theorem lawful_invoke {orchestrators : ι → InvocationOrchestrator} {requests : ι → InferenceRequest}
    {now : Int} {G : TableState → List (Entry Backend TableState ι) → Prop}
    {c : Config Backend TableState ι InferenceResult}
    (h : tableMachine.Reachable G (start store orchestrators requests now) c) :
    tableMachine.Lawful (tableProtocol store) (.ready 0) G
      (start store orchestrators requests now).shared
      c.shared c.log := by
  have hspec : ∀ i, Spec (tableProtocol store) ((start store orchestrators requests now).threads i)
      (fun _ phase => ∃ held, Stands held phase) (.ready 0) :=
    fun i => spec_overDynamoDb (orchestrators i).spec_invoke_protocol
  refine (h.lawful rfl hspec fun s log i call reply s' _ _ hact => ?_).1
  cases call with
  | clockSeconds => exact ⟨_, hact.1⟩
  | _ => trivial

/-! ## What a reservation answers -/

/-- The operations of the call begin with those of a `reserve` that answers NEW, which are followed
by `rest`. -/
def AnsweredNew (store : DynamoDbIdempotencyStore) (i : ι) (reservation : HeldReservation)
    (rest : List (Event Backend)) (log : List (Entry Backend TableState ι)) : Prop :=
  ∃ operations answer, own i log = operations ++ rest ∧
    Run (store.reserve reservation.applicationId reservation.idempotencyKey reservation.requestHash)
      operations (.ok answer) ∧
    answer.outcome = .new

/-- The operation that ends a `complete` or a `release`, carried out or not. -/
def Settling : BackendCall → Prop
  | .putItem _ none | .deleteItem _ _ => True
  | _ => False

/-- Whose `reserve` answered NEW has written its reservation, and until it completes or releases it
is alone with its key. -/
def Exclusive (store : DynamoDbIdempotencyStore) (log : List (Entry Backend TableState ι)) : Prop :=
  (∀ i reservation rest, AnsweredNew store i reservation rest log → Wrote store i reservation log) ∧
  (∀ i j reservation reservation' rest rest',
    AnsweredNew store i reservation rest log → (∀ event ∈ rest, ¬ Settling event.call) →
    AnsweredNew store j reservation' rest' log → (∀ event ∈ rest', ¬ Settling event.call) →
    reservation.key = reservation'.key → i = j)

variable {G : TableState → List (Entry Backend TableState ι) → Prop} {i : ι}
  {reservation : HeldReservation} {written : Bool}

theorem kept_own (h : tableMachine.Lawful (tableProtocol store) (.ready 0) G s₀ s log)
    (phase : Phase) :
    (tableProtocol store).Kept phase (own i log) := by
  refine Monitor.kept_of_forall fun phase event hevent => ?_
  obtain ⟨entry, hentry, -, rfl⟩ := mem_own.mp hevent
  obtain ⟨later, past, rfl⟩ := List.append_of_mem hentry
  obtain ⟨-, -, s', hact, -⟩ := h.split
  obtain ⟨i, s, call, reply⟩ := entry
  cases call with
  | clockSeconds => exact ⟨_, hact.1⟩
  | _ => trivial

theorem held_of_answer (h : tableMachine.Lawful (tableProtocol store) (.ready 0) G s₀ s log)
    {answer : IdempotencyReservation} (hnew : answer.outcome = .new)
    (hreserve : Run (store.reserve reservation.applicationId reservation.idempotencyKey
      reservation.requestHash)
      (own i log) (.ok answer)) :
    ∃ written, (tableProtocol store).phase (.ready 0) i log = .held reservation written := by
  have hreserved := spec_reserve.run hreserve (kept_own h _)
  rw [← Monitor.phase_eq_after, Reserved, if_pos hnew] at hreserved
  exact hreserved

theorem held_stays {later past : List (Entry Backend TableState ι)}
    (h : tableMachine.Lawful (tableProtocol store) (.ready 0) G s₀ s (later ++ past))
    (hheld : (tableProtocol store).phase (.ready 0) i past = .held reservation written)
    (hunsettled : ∀ event ∈ own i later, ¬ Settling event.call) :
    (tableProtocol store).phase (.ready 0) i (later ++ past) = .held reservation written := by
  induction later generalizing s with
  | nil => exact hheld
  | cons entry later ih =>
      have hentry : tableMachine.Lawful (tableProtocol store) (.ready 0) G s₀ s
          ([] ++ entry :: (later ++ past)) := h
      obtain ⟨hlawful, howes, -⟩ := hentry.split
      rw [List.cons_append]
      by_cases hi : entry.thread = i
      · subst hi
        rw [own_cons_self] at hunsettled
        obtain ⟨hlater, hentry⟩ := List.forall_mem_append.mp hunsettled
        have hstands := ih hlawful hlater
        rw [Monitor.phase_cons_self, hstands]
        rw [hstands] at howes
        have hquiet := hentry _ List.mem_cons_self
        obtain ⟨i, s, call, reply⟩ := entry
        cases call with
        | ofPort port => rfl
        | clockSeconds => cases reply <;> rfl
        | putItem item condition =>
            cases condition with
            | none => exact absurd trivial hquiet
            | some now =>
                obtain ⟨⟨lost, hread⟩, -⟩ := howes
                cases hread
        | getItem pk sk =>
            obtain ⟨reservation', lost, hrefused, -⟩ := howes
            cases hrefused
        | deleteItem pk sk => exact absurd trivial hquiet
      · rw [own, if_neg hi] at hunsettled
        rw [Monitor.phase_cons_of_ne hi]
        exact ih hlawful hunsettled

/-- **While no call falls through, `reserve` answers NEW to the one call whose put wrote the
reservation.** -/
theorem reserve_exclusive (store : DynamoDbIdempotencyStore)
    (orchestrators : ι → InvocationOrchestrator)
    (requests : ι → InferenceRequest) (now : Int) (c : Config Backend TableState ι InferenceResult)
    (h : tableMachine.Reachable (fun s log => leasing.Timely s log ∧ LastLookUpFinds store s log)
      (start store orchestrators requests now) c) : Exclusive store c.log := by
  have hlawful := lawful_invoke h
  have hfinds : tableMachine.Lawful (tableProtocol store) (.ready 0)
      (LastLookUpFinds store) _ c.shared c.log :=
    hlawful.mono ⟨Lease.Leasing.timely_nil, trivial⟩ trivial (fun _ _ _ _ _ _ _ hG =>
      hG.2) fun _ _ _ hG _ => hG
  have hintime : tableMachine.Lawful (tableProtocol store) (.ready 0)
      (fun s log => leasing.SettlesInTime s log ∧ LastLookUpFinds store s log) _ c.shared c.log :=
    hlawful.mono ⟨Lease.Leasing.timely_nil, trivial⟩ ⟨trivial, trivial⟩
      (fun _ _ _ _ _ _ hG hG' => ⟨hG.1.settlesInTime, hG'.2⟩) fun _ _ _ hG _ => hG
  have htimely : leasing.Timely c.shared c.log :=
    (hlawful.guard ⟨Lease.Leasing.timely_nil, trivial⟩).1
  have hwritten : ∀ i reservation rest, AnsweredNew store i reservation rest c.log →
      ∃ later past s',
      c.log = later ++ past ∧ own i later = rest ∧
      tableMachine.Lawful (tableProtocol store) (.ready 0) (LastLookUpFinds store)
        (start store orchestrators requests now).shared s' past ∧
      (tableProtocol store).phase (.ready 0) i past = .held reservation true := by
    rintro i reservation rest ⟨operations, answer, hown, hreserve, hnew⟩
    obtain ⟨later, past, s', hlog, rfl, hlater, hpast⟩ := hfinds.past hown
    obtain ⟨written, hheld⟩ := held_of_answer hpast hnew hreserve
    refine ⟨later, past, s', hlog, hlater, hpast, ?_⟩
    cases written with
    | true => exact hheld
    | false => exact absurd hheld (not_fallen hpast reservation)
  have hflight : ∀ i reservation rest, AnsweredNew store i reservation rest c.log →
      (∀ event ∈ rest, ¬ Settling event.call) → leasing.InFlight i reservation.key c.log := by
    intro i reservation rest hnew hunsettled
    obtain ⟨later, past, s', hlog, rfl, -, hheld⟩ := hwritten i reservation rest hnew
    rw [hlog] at hlawful ⊢
    exact inFlight_of_written (held_stays hlawful hheld hunsettled)
  refine ⟨fun i reservation rest hnew => ?_, ?_⟩
  · obtain ⟨later, past, s', hlog, -, hpast, hheld⟩ := hwritten i reservation rest hnew
    obtain ⟨entry, hentry, hwrote⟩ := wrote_of_written hpast hheld
    exact ⟨entry, hlog ▸ List.mem_append_right later hentry, hwrote⟩
  · intro i j reservation reservation' rest rest' hi hunsettled hj hunsettled' hkey
    have hfirst := hflight i reservation rest hi hunsettled
    rw [hkey] at hfirst
    exact Lease.Leasing.exclusive (owned hintime) htimely hfirst
      (hflight j reservation' rest' hj hunsettled')

end DynamoDbIdempotencyStore.TableState

/-! ## Four calls -/

instance (phase : Phase) (event : Event Backend) (table : String × String → Option Item) :
    Decidable (FindsItem phase event table) :=
  match phase with
  | .refused reservation lost =>
    inferInstanceAs (Decidable (looksUp event = true → maxReserveAttempts ≤ lost + 1 →
      table reservation.key ≠ none))
  | .ready _ | .read _ _ | .held _ _ => isTrue trivial

instance {n : Nat} (store : DynamoDbIdempotencyStore) (s : TableState)
    (log : List (Entry Backend TableState (Fin n))) :
    Decidable (LastLookUpFinds store s log) :=
  match log with
  | [] => isTrue trivial
  | entry :: past =>
    inferInstanceAs (Decidable
      (FindsItem ((tableProtocol store).phase (.ready 0) entry.thread past) entry.event
      entry.before.table))

namespace Scenario

/-- No application has a policy, so every reservation is released at once. -/
def withoutPolicies : World :=
  { throttled with
    policy := fun applicationId => .error (.routingPolicyNotFoundError applicationId) }

def tableAnswer (world : World) : Handler Backend TableState :=
  serve fun port => (world.answer port fresh).1

def laterBy (duration : Nat) (s : TableState) : TableState := { s with now := s.now + duration }

theorem tableMachine_act (world : World) (call : BackendCall) (s : TableState) :
    tableMachine.act s call (tableAnswer world call s).1 (tableAnswer world call s).2 := by
  cases call with
  | ofPort port => exact rfl
  | clockSeconds => exact ⟨rfl, rfl⟩
  | putItem item condition => exact Or.inl rfl
  | getItem pk sk => exact ⟨Or.inl rfl, rfl⟩
  | deleteItem pk sk => exact Or.inl ⟨rfl, rfl⟩

theorem tableMachine_tick (duration : Nat) (s : TableState) :
    tableMachine.tick s (laterBy duration s) := by
  refine ⟨rfl, ?_⟩
  show s.now ≤ s.now + duration
  omega

/-- Four calls with one key. -/
def fourCalls : Config Backend TableState (Fin 4) InferenceResult :=
  TableState.start table (fun _ => Scenario.orchestrator) (fun _ => keyed) 0

def reservation : HeldReservation where
  applicationId := "app"
  idempotencyKey := "key"
  requestHash := "hello"

/-- Call 0 reserves; call 1 is refused and finds its item. -/
def refusedOnce : List (Move (Fin 4)) := [.call 0, .call 0, .call 1, .call 1, .call 1]

section
variable (store : DynamoDbIdempotencyStore) (reservation : HeldReservation) (clock clock' : Int)

/-- The conditional put of an attempt. -/
def attemptsPut (clock : Int) (reply : Except PyException Unit) : Event Backend :=
  ⟨.putItem (store.reservedItem reservation.applicationId reservation.idempotencyKey
    reservation.requestHash
    (wholeSeconds clock)) (some (wholeSeconds clock)), reply⟩

/-- An attempt that loses its race. -/
def lostAttempt (clock : Int) : List (Event Backend) :=
  [⟨.clockSeconds, .ok clock⟩, attemptsPut store reservation clock (.error conditionalCheckFailed),
    ⟨.getItem reservation.applicationId reservation.idempotencyKey, .ok none⟩]

theorem run_reserve_written :
    Run (store.reserve reservation.applicationId reservation.idempotencyKey reservation.requestHash)
      [⟨.clockSeconds, .ok clock⟩, attemptsPut store reservation clock (.ok ())]
        (.ok { outcome := .new }) :=
  Steps.call (Steps.call (Steps.refl _))

theorem run_reserve_fallen :
    Run (store.reserve reservation.applicationId reservation.idempotencyKey reservation.requestHash)
      (lostAttempt store reservation clock ++ lostAttempt store reservation clock')
        (.ok { outcome := .new }) :=
  Steps.call (Steps.call (Steps.call (Steps.call (Steps.call (Steps.call (Steps.refl _))))))

end

/-- Call 0 is the only one that was answered NEW. -/
theorem first_exclusive : ∃ c, tableMachine.Reachable
    (fun s log => leasing.Timely s log ∧ LastLookUpFinds table s log) fourCalls c ∧
    AnsweredNew table 0 reservation [] c.log ∧ Wrote table 0 reservation c.log ∧
    ∀ i rest, AnsweredNew table i reservation rest c.log → (∀ event ∈ rest, ¬ Settling event.call) →
      i = 0 := by
  have hkeeps : fourCalls.PlayKeeps (tableAnswer withoutPolicies) laterBy
      (fun s log => leasing.Timely s log ∧ LastLookUpFinds table s log) refusedOnce := by
        decide +kernel
  have hreach := Machine.Reachable.play (tableMachine_act withoutPolicies) tableMachine_tick .refl
      refusedOnce hkeeps
  have hfirst : AnsweredNew table 0 reservation []
      (fourCalls.play (tableAnswer withoutPolicies) laterBy refusedOnce).log :=
    ⟨_, _, rfl, run_reserve_written table reservation 0, rfl⟩
  have hexclusive := reserve_exclusive table (fun _ => Scenario.orchestrator) (fun _ =>
      keyed) 0 _ hreach
  refine ⟨_, hreach, hfirst, hexclusive.1 0 reservation [] hfirst, fun i rest hnew hunsettled => ?_⟩
  exact hexclusive.2 i 0 reservation reservation rest [] hnew hunsettled hfirst (by simp) rfl

/-- Call 1 is refused by the item of call 0 and finds it deleted, then the same with call 2; then
call 3 reserves. -/
def lostTwice : List (Move (Fin 4)) :=
  [.call 0, .call 0, .call 1, .call 1, .call 0, .call 0, .call 1,
    .call 2, .call 2, .call 1, .call 1, .call 2, .call 2, .call 1, .call 3, .call 3]

/-- **Two calls are in flight for one key, inside their windows.** -/
theorem reserve_not_exclusive : ¬ ∀ c, tableMachine.Reachable leasing.Timely fourCalls c →
    Exclusive table c.log := by
  intro h
  have hkeeps : fourCalls.PlayKeeps (tableAnswer withoutPolicies) laterBy leasing.Timely lostTwice := by decide +kernel
  have hreach : tableMachine.Reachable leasing.Timely fourCalls
      (fourCalls.play (tableAnswer withoutPolicies) laterBy lostTwice) :=
    Machine.Reachable.play (tableMachine_act withoutPolicies) tableMachine_tick .refl lostTwice hkeeps
  have hfallen : AnsweredNew table 1 reservation []
      (fourCalls.play (tableAnswer withoutPolicies) laterBy lostTwice).log :=
    ⟨_, _, rfl, run_reserve_fallen table reservation 0 0, rfl⟩
  have hwritten : AnsweredNew table 3 reservation []
      (fourCalls.play (tableAnswer withoutPolicies) laterBy lostTwice).log :=
    ⟨_, _, rfl, run_reserve_written table reservation 0, rfl⟩
  have hsame := (h _ hreach).2 1 3 reservation reservation [] [] hfallen (by simp) hwritten
      (by simp) rfl
  exact absurd hsame (by decide)

end Scenario

end ModelRouter
