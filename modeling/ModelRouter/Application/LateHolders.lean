import ModelRouter.Application.MutualExclusion
import ModelRouter.Application.TableExclusivity

/-!
# Late holders

`complete` and `release` name a key, not a reservation, so a holder that settles after its
reservation has expired may remove the reservation of its successor: in `succession` a third call is
answered NEW while the second is inside its window (`late_holder_disturbs`). Holders that settle in
time, or never, disturb nobody (`settles_undisturbed`).
-/

namespace ModelRouter
open Effects Prog DynamoDbIdempotencyStore

variable {ι : Type} [DecidableEq ι]

theorem SharedStore.undisturbed_of_lawful {s₀ s : SharedStore}
    {log : List (Entry Ports SharedStore ι)}
    (h : storeMachine.Lawful reservationProtocol none SharedStore.leasing.SettlesInTime s₀ s log) :
    SharedStore.leasing.Undisturbed log := by
  intro later entry past hlog event hevent
  rw [hlog] at h
  obtain ⟨hbefore, howes, s', hact, hintime⟩ := h.split
  exact Lease.Leasing.undisturbing (SharedStore.owned hbefore)
    (SharedStore.step_call howes hact hintime) hevent

theorem DynamoDbIdempotencyStore.TableState.undisturbed_of_lawful {store : DynamoDbIdempotencyStore}
    {s₀ s : TableState} {log : List (Entry Backend TableState ι)}
    (h : tableMachine.Lawful (tableProtocol store) (.ready 0)
      (fun s log => TableState.leasing.SettlesInTime s log ∧
        TableState.LastLookUpFinds store s log) s₀ s log) :
    TableState.leasing.Undisturbed log := by
  intro later entry past hlog event hevent
  rw [hlog] at h
  obtain ⟨hbefore, howes, s', hact, hintime, -⟩ := h.split
  have hfinds : tableMachine.Lawful (tableProtocol store) (.ready 0)
      (TableState.LastLookUpFinds store) s₀
      entry.before past :=
    hbefore.mono ⟨trivial, trivial⟩ trivial (fun _ _ _ _ _ _ _ hG => hG.2) fun _ _ _ hG _ => hG
  exact Lease.Leasing.undisturbing (TableState.owned hbefore)
    (TableState.step_call hfinds howes hact hintime) hevent

namespace InvocationOrchestrator

/-- **Over either store, calls that settle in time settle their own reservation**, and no call is
answered NEW while another is inside its window. -/
theorem settles_undisturbed (orchestrators : ι → InvocationOrchestrator)
    (requests : ι → InferenceRequest)
    (store : DynamoDbIdempotencyStore) (staleReservation now : Int) :
    (∀ c, storeMachine.Reachable SharedStore.leasing.SettlesInTime
        (SharedStore.start orchestrators requests staleReservation now) c →
        SharedStore.leasing.Undisturbed c.log) ∧
    (∀ c, tableMachine.Reachable
        (fun s log => TableState.leasing.SettlesInTime s log ∧
          TableState.LastLookUpFinds store s log)
        (TableState.start store orchestrators requests now) c →
        TableState.leasing.Undisturbed c.log) := by
  constructor
  · intro c h
    exact SharedStore.undisturbed_of_lawful (SharedStore.lawful_invoke h)
  · intro c h
    exact TableState.undisturbed_of_lawful (TableState.lawful_invoke h)

end InvocationOrchestrator

/-! ## A late holder -/

namespace Scenario

def threeCalls : Config Ports SharedStore (Fin 3) InferenceResult :=
  SharedStore.start (fun _ => Scenario.orchestrator) (fun _ => keyed) 300000000 0

def threeTableCalls : Config Backend TableState (Fin 3) InferenceResult :=
  TableState.start table (fun _ => Scenario.orchestrator) (fun _ => keyed) 0

/-- Call 1 takes over when the reservation of call 0 has expired, and releases it; call 0 never
settles. -/
def takeover : List (Move (Fin 3)) := [.call 0, .wait 300000000, .call 1, .call 1, .call 1]

def tableTakeover : List (Move (Fin 3)) :=
  [.call 0, .call 0, .wait 301000000, .call 1, .call 1, .call 1, .call 1]

/-- Over either store the takeover disturbs nobody. -/
theorem takeover_undisturbed :
    SharedStore.leasing.Undisturbed
      (threeCalls.play (storeAnswer withoutPolicies) advance takeover).log ∧
    TableState.leasing.Undisturbed
      (threeTableCalls.play (tableAnswer withoutPolicies) laterBy tableTakeover).log := by
  have hstore : storeMachine.Reachable SharedStore.leasing.SettlesInTime threeCalls
      (threeCalls.play (storeAnswer withoutPolicies) advance takeover) :=
    Machine.Reachable.play (storeMachine_act withoutPolicies) storeMachine_tick .refl takeover
      (by decide +kernel)
  have htable : tableMachine.Reachable
      (fun s log => TableState.leasing.SettlesInTime s log ∧
        TableState.LastLookUpFinds table s log) threeTableCalls
      (threeTableCalls.play (tableAnswer withoutPolicies) laterBy tableTakeover) :=
    Machine.Reachable.play (tableMachine_act withoutPolicies) tableMachine_tick .refl tableTakeover
      (by decide +kernel)
  have hundisturbed := InvocationOrchestrator.settles_undisturbed (fun _ => Scenario.orchestrator)
    (fun _ : Fin 3 => keyed) table 300000000 0
  exact ⟨hundisturbed.1 _ hstore, hundisturbed.2 _ htable⟩

/-- Call 1 takes over when the reservation of call 0 has expired; call 0 releases, and call 2
reserves. -/
def succession : List (Move (Fin 3)) :=
  [.call 0, .wait 300000000, .call 1, .call 0, .call 0, .call 2]

def tableSuccession : List (Move (Fin 3)) :=
  [.call 0, .call 0, .wait 301000000, .call 1, .call 1, .call 0, .call 0, .call 2, .call 2]

/-- **Over either store a third call is answered NEW while the second is inside its window.** -/
theorem late_holder_disturbs :
    (¬ ∀ c, storeMachine.Reachable (fun _ _ => True) threeCalls c →
      SharedStore.leasing.Undisturbed c.log) ∧
    (¬ ∀ c, tableMachine.Reachable (fun _ _ => True) threeTableCalls c →
      TableState.leasing.Undisturbed c.log) := by
  constructor
  · intro h
    have hreach : storeMachine.Reachable (fun _ _ => True) threeCalls
        (threeCalls.play (storeAnswer withoutPolicies) advance succession) :=
      Machine.Reachable.play (storeMachine_act withoutPolicies) storeMachine_tick .refl succession
        (Config.playKeeps_true ..)
    refine @Lease.Leasing.not_undisturbed _ _ _ _ _ _ _ SharedStore.leasing _ 2 1 ("app",
      "key") _ 600000000 600000000
      300000000 ?_ ?_ ?_ (h _ hreach)
    · decide +kernel
    · decide +kernel
    · show ¬ (600000000 : Int) ≤ 300000000
      decide
  · intro h
    have hreach : tableMachine.Reachable (fun _ _ => True) threeTableCalls
        (threeTableCalls.play (tableAnswer withoutPolicies) laterBy tableSuccession) :=
      Machine.Reachable.play (tableMachine_act withoutPolicies) tableMachine_tick .refl
        tableSuccession
        (Config.playKeeps_true ..)
    refine @Lease.Leasing.not_undisturbed _ _ _ _ _ _ _ TableState.leasing _ 2 1 ("app",
      "key") _ 601 601 301
      ?_ ?_ ?_ (h _ hreach)
    · decide +kernel
    · decide +kernel
    · show ¬ (601 : Int) < 301
      decide

end Scenario

end ModelRouter
