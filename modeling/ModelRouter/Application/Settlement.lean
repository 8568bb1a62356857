import ModelRouter.Application.DynamoDbSettlement
import ModelRouter.Application.InMemorySettlement

/-!
# Every exit

A call that was answered NEW and has returned or raised has settled its reservation, over either
store, unless one of the two calls raised that nothing guards: the second resolution of the policy,
or the completion (`exits_settle_iff`). Both can: a retention may end past the last `datetime`, and
the policies may be gone (`exits_strand`).
-/

namespace ModelRouter
open Effects DynamoDbIdempotencyStore

variable {ι : Type} [DecidableEq ι]

namespace InvocationOrchestrator

/-- **A call that has ended has settled its reservation exactly when no unguarded call raised**, or
somebody else has moved the key since. -/
theorem exits_settle_iff (orchestrators : ι → InvocationOrchestrator)
    (requests : ι → InferenceRequest)
    (store : DynamoDbIdempotencyStore) (staleReservation now : Int) (i : ι)
    (out : Except PyException InferenceResult) :
    (∀ c, storeMachine.Reachable (fun _ _ => True)
      (SharedStore.start orchestrators requests staleReservation now) c →
      c.threads i = Prog.ofExcept out →
      ∀ applicationId idempotencyKey requestHash reservation calls,
        own i c.log = ⟨.reserve applicationId idempotencyKey requestHash,
          .ok reservation⟩ :: calls →
        reservation.outcome = .new →
        (SharedStore.Settled i applicationId idempotencyKey c.shared c.log ↔
          ¬ (Stranded (orchestrators i) (requests i) idempotencyKey requestHash calls ∧
            SharedStore.leasing.Untouched i (applicationId, idempotencyKey) c.log))) ∧
    (∀ c, tableMachine.Reachable (fun _ _ => True)
      (TableState.start store orchestrators requests now) c →
      c.threads i = Prog.ofExcept out →
      (∃ tr, Run ((orchestrators i).invoke (requests i)) tr out ∧
        Carried store.carryOut tr (own i c.log)) ∧
      ∀ applicationId idempotencyKey requestHash reservation calls,
        Run ((orchestrators i).invoke (requests i))
          (⟨.reserve applicationId idempotencyKey requestHash, .ok reservation⟩ :: calls) out →
        @Carried Ports Backend store.carryOut
          (⟨.reserve applicationId idempotencyKey requestHash, .ok reservation⟩ :: calls)
            (own i c.log) →
        reservation.outcome = .new →
        (∀ x, (⟨.release applicationId idempotencyKey, .error x⟩ : Event Ports) ∉ calls) →
        (TableState.Settled store i applicationId idempotencyKey c.shared c.log ↔
          ¬ (Stranded (orchestrators i) (requests i) idempotencyKey requestHash calls ∧
            TableState.leasing.Untouched i (applicationId, idempotencyKey) c.log))) := by
  constructor
  · intro c h hend applicationId idempotencyKey requestHash reservation calls hown hnew
    exact SharedStore.settled_iff h hend hown hnew
  · intro c h hend
    refine ⟨TableState.exists_carried h hend, ?_⟩
    intro applicationId idempotencyKey requestHash reservation calls hrun hcarried hnew hrelease
    exact TableState.settled_iff h hrun hcarried hnew hrelease

end InvocationOrchestrator

/-! ## Calls that end -/

namespace Scenario

/-- The `reserve` of the key was answered NEW. -/
def reservedNew (event : Event Ports) : Bool :=
  match event with
  | ⟨.reserve applicationId idempotencyKey _, .ok reservation⟩ =>
    (applicationId, idempotencyKey) = ("app", "key") ∧ reservation.outcome = .new
  | _ => false

theorem exists_reserved {tr : List (Event Ports)} (h : tr.head?.any reservedNew = true) :
    ∃ requestHash reservation calls,
      tr = ⟨.reserve "app" "key" requestHash, .ok reservation⟩ :: calls ∧
      reservation.outcome = .new := by
  cases tr with
  | nil => cases h
  | cons event calls =>
      have hnew : reservedNew event = true := h
      unfold reservedNew at hnew
      split at hnew
      · obtain ⟨hkey, hnew⟩ := of_decide_eq_true hnew
        obtain ⟨rfl, rfl⟩ := Prod.mk.inj hkey
        exact ⟨_, _, calls, rfl, hnew⟩
      · cases hnew

instance (event : Event Backend) : Decidable (Takes event) :=
  match event with
  | ⟨.putItem _ (some _), .ok _⟩ => isTrue trivial
  | ⟨.putItem _ (some _), .error _⟩ | ⟨.putItem _ none, _⟩ => isFalse id
  | ⟨.ofPort _, _⟩ | ⟨.clockSeconds, _⟩ | ⟨.getItem _ _, _⟩ | ⟨.deleteItem _ _, _⟩ => isFalse id

def failedDelete (event : Event Backend) : Bool :=
  match event with
  | ⟨.deleteItem _ _, .error _⟩ => true
  | _ => false

theorem reachable_play (world : World) {n : Nat}
    {c₀ c : Config Ports SharedStore (Fin n) InferenceResult}
    (h : storeMachine.Reachable (fun _ _ => True) c₀ c) (moves : List (Move (Fin n))) :
    storeMachine.Reachable (fun _ _ => True) c₀ (c.play (storeAnswer world) advance moves) :=
  Machine.Reachable.play (storeMachine_act world) storeMachine_tick h moves
    (Config.playKeeps_true ..)

theorem reachable_tablePlay (world : World) {n : Nat}
    {c₀ c : Config Backend TableState (Fin n) InferenceResult}
    (h : tableMachine.Reachable (fun _ _ => True) c₀ c) (moves : List (Move (Fin n))) :
    tableMachine.Reachable (fun _ _ => True) c₀ (c.play (tableAnswer world) laterBy moves) :=
  Machine.Reachable.play (tableMachine_act world) tableMachine_tick h moves
    (Config.playKeeps_true ..)

/-- Call `i` makes its calls alone. -/
def alone {n : Nat} (i : Fin n) (calls : Nat) : List (Move (Fin n)) :=
  List.replicate calls (.call i)

/-- Call `i` has run to its end. -/
def completedCall (i : Fin 2) : Config Ports SharedStore (Fin 2) InferenceResult :=
  twoCalls.play (storeAnswer caching) advance (alone i 20)

def completedTableCall (i : Fin 4) : Config Backend TableState (Fin 4) InferenceResult :=
  fourCalls.play (tableAnswer caching) laterBy (alone i 22)

theorem completed_settles :
    SharedStore.Settled 0 "app" "key" (completedCall 0).shared (completedCall 0).log ∧
    ∃ requestHash calls, ¬ (InvocationOrchestrator.Stranded Scenario.orchestrator keyed "key"
      requestHash calls ∧
      TableState.leasing.Untouched 0 ("app", "key") (completedTableCall 0).log) := by
  constructor
  · have hreach : storeMachine.Reachable (fun _ _ => True) twoCalls (completedCall 0) :=
      reachable_play caching .refl _
    have hended : ((completedCall 0).threads 0).ended = true := by decide +kernel
    have hreserved : (own 0 (completedCall 0).log).head?.any reservedNew = true := by decide +kernel
    have hlast : (own 0 (completedCall 0).log).getLast?.any InvocationOrchestrator.raisedUnguarded =
        false := by
      decide +kernel
    obtain ⟨out, hend⟩ := Prog.exists_ofExcept hended
    obtain ⟨requestHash, reservation, calls, hown, hnew⟩ := exists_reserved hreserved
    have hexits := InvocationOrchestrator.exits_settle_iff (fun _ : Fin 2 => Scenario.orchestrator)
        (fun _ => keyed)
      Scenario.table 300000000 0 0 out
    refine (hexits.1 _ hreach hend "app" "key" requestHash reservation calls hown hnew).mpr ?_
    rintro ⟨hstranded, -⟩
    have hraised := hstranded.getLast?
    rw [hown] at hlast
    cases calls with
    | nil => cases hraised
    | cons event calls =>
        rw [List.getLast?_cons_cons, hraised] at hlast
        cases hlast
  · have hreach : tableMachine.Reachable (fun _ _ => True) fourCalls (completedTableCall 0) :=
      reachable_tablePlay caching .refl _
    have hended : ((completedTableCall 0).threads 0).ended = true := by decide +kernel
    have htakes : ∃ event ∈ own 0 (completedTableCall 0).log, Takes event := by decide +kernel
    have hdeletes : ∀ event ∈ own 0 (completedTableCall 0).log, failedDelete event = false := by
      decide +kernel
    have hclient : Lease.client ("app", "key")
        (TableState.leasing.events (completedTableCall 0).log) = none := by
      decide +kernel
    obtain ⟨out, hend⟩ := Prog.exists_ofExcept hended
    have hexits := InvocationOrchestrator.exits_settle_iff (fun _ : Fin 4 => Scenario.orchestrator)
        (fun _ => keyed)
      Scenario.table 300000000 0 0 out
    obtain ⟨⟨tr, hrun, hcarried⟩, hiff⟩ := hexits.2 _ hreach hend
    obtain ⟨event, hmem, htakes⟩ := htakes
    obtain ⟨idempotencyKey, requestHash, calls, hkey, rfl⟩ := answered_new hrun hcarried hmem htakes
    cases hkey
    have hrelease : ∀ x, (⟨.release "app" "key", .error x⟩ : Event Ports) ∉ calls := by
      intro x hraised
      obtain ⟨part, hpart, hrelease⟩ := hcarried.mem (List.mem_cons_of_mem _ hraised)
      have hdeleted := (run_perform_iff _ _ _).mp ((run_attempt_iff _ _ _).mp hrelease)
      rw [hdeleted] at hpart
      cases hdeletes _ (hpart _ List.mem_cons_self)
    have hmarks := @TableState.marks Scenario.table _ _ _ _ _ _ rfl
        (TableState.lawful_invoke hreach)
    have hsettled : TableState.Settled Scenario.table 0 "app" "key" (completedTableCall 0).shared
        (completedTableCall 0).log :=
      (TableState.settled_iff_not_standsAt hmarks).mpr
        fun hstands => by cases hclient.symm.trans hstands
    exact ⟨requestHash, calls,
      (hiff "app" "key" requestHash _ calls hrun hcarried rfl hrelease).mp hsettled⟩

/-- The completion of call `i` has raised. -/
def uncompletedCall (i : Fin 2) : Config Ports SharedStore (Fin 2) InferenceResult :=
  twoCalls.play (storeAnswer endless) advance (alone i 20)

/-- Call `i` has recorded its result; then the policies are gone. -/
def unresolvedTableCall (i : Fin 4) : Config Backend TableState (Fin 4) InferenceResult :=
  (fourCalls.play (tableAnswer throttled) laterBy (alone i 19)).play
    (tableAnswer withoutPolicies) laterBy (alone i 1)

/-- **Both calls have ended, and their reservations are left in progress**; in memory a retry is
answered IN_PROGRESS. -/
theorem exits_strand :
    (¬ ∀ c, storeMachine.Reachable (fun _ _ => True) twoCalls c →
      ∀ out, c.threads 0 = Prog.ofExcept out →
      ∀ requestHash reservation calls,
        own 0 c.log = ⟨.reserve "app" "key" requestHash, .ok reservation⟩ :: calls →
        reservation.outcome = .new →
        SharedStore.Settled 0 "app" "key" c.shared c.log) ∧
    ((uncompletedCall 0).shared.store.reserve (uncompletedCall 0).shared.now "app" "key"
      "hello").1.toOption.map (·.outcome) =
      some .inProgress ∧
    (¬ ∀ c, tableMachine.Reachable (fun _ _ => True) fourCalls c →
      ∀ out, c.threads 0 = Prog.ofExcept out →
      TableState.Wrote Scenario.table 0 reservation c.log →
      TableState.Settled Scenario.table 0 "app" "key" c.shared c.log) := by
  refine ⟨fun h => ?_, by decide +kernel, fun h => ?_⟩
  · have hreach : storeMachine.Reachable (fun _ _ => True) twoCalls (uncompletedCall 0) :=
      reachable_play endless .refl _
    have hended : ((uncompletedCall 0).threads 0).ended = true := by decide +kernel
    have hreserved : (own 0 (uncompletedCall 0).log).head?.any reservedNew = true := by
      decide +kernel
    have hclient : Lease.client ("app", "key") (SharedStore.leasing.events (uncompletedCall 0).log)
        = some 0 := by
      decide +kernel
    obtain ⟨out, hend⟩ := Prog.exists_ofExcept hended
    obtain ⟨requestHash, reservation, calls, hown, hnew⟩ := exists_reserved hreserved
    have hsettled := h _ hreach out hend requestHash reservation calls hown hnew
    have hmarks := SharedStore.marks rfl (SharedStore.lawful_invoke hreach)
    exact (SharedStore.settled_iff_not_standsAt hmarks).mp hsettled hclient
  · have hreach : tableMachine.Reachable (fun _ _ => True) fourCalls (unresolvedTableCall 0) :=
      reachable_tablePlay withoutPolicies (reachable_tablePlay throttled .refl _) _
    have hended : ((unresolvedTableCall 0).threads 0).ended = true := by decide +kernel
    have hwritten : (tableProtocol Scenario.table).phase (.ready 0) 0 (unresolvedTableCall 0).log =
        .held reservation true := by
      decide +kernel
    have hclient : Lease.client ("app", "key")
        (TableState.leasing.events (unresolvedTableCall 0).log) = some 0 := by
      decide +kernel
    obtain ⟨out, hend⟩ := Prog.exists_ofExcept hended
    have hlawful := @TableState.lawful_invoke _ _ Scenario.table _ _ _ _ _ hreach
    have hsettled := h _ hreach out hend (TableState.wrote_of_written hlawful hwritten)
    exact (TableState.settled_iff_not_standsAt (TableState.marks rfl hlawful)).mp hsettled hclient

end Scenario

end ModelRouter
