import ModelRouter.Application.MutualExclusion
import ModelRouter.Application.ReservationExits

/-!
# Settlement in memory

A record is in progress exactly where the lease of a call stands (`marks`). The lease of a call that
has ended stands when the call was stranded and no other call has moved the key since
(`settled_iff`).
-/

namespace ModelRouter
open Effects Prog InvocationOrchestrator

namespace SharedStore

variable {ι : Type} [DecidableEq ι]

/-- The record of the key is in progress. -/
def Busy (s : SharedStore) (key : String × String) : Prop :=
  ∃ record, s.store.records key = some record ∧ record.inProgress = true

theorem busy_of_ne {s s' : SharedStore} {key : String × String}
    {left : Option InMemoryIdempotencyStore.Record}
    (hstore : s'.store.records = Function.update s.store.records key left) (key' : String × String)
    (hkey : key' ≠ key) : s'.Busy key' ↔ s.Busy key' := by
  unfold Busy
  rw [hstore, Function.update_of_ne hkey]

variable {s s' s₀ : SharedStore} {log : List (Entry Ports SharedStore ι)} {i : ι} {port : Port}
  {reply : Except PyException port.Answer}
  {G : SharedStore → List (Entry Ports SharedStore ι) → Prop}

omit [DecidableEq ι] in
theorem marks_step (hact : storeMachine.act s port reply s') (h : leasing.Marks s.Busy log) :
    leasing.Marks s'.Busy (⟨i, s, ⟨port, reply⟩⟩ :: log) := by
  obtain ⟨store', now'⟩ := s'
  cases port with
  | reserve applicationId idempotencyKey requestHash =>
      obtain ⟨hreserve, rfl⟩ := hact
      rcases InMemoryIdempotencyStore.reserve_cases hreserve with
        ⟨record, -, -, rfl, rfl⟩ | ⟨hfree, rfl, rfl⟩ | ⟨x, rfl, rfl⟩
      · refine h.aside (fun key hmoves => ?_) fun _ => Iff.rfl
        obtain ⟨event, hevent, -⟩ := hmoves
        have hnone : leaseEvent (⟨i, s, ⟨.reserve applicationId idempotencyKey requestHash,
            .ok (record.answer requestHash)⟩⟩ : Entry Ports SharedStore ι) = none :=
          if_neg (InMemoryIdempotencyStore.answer_ne_new record requestHash)
        cases hnone.symm.trans hevent
      · exact h.take rfl ⟨_, Function.update_self .., rfl⟩ (busy_of_ne rfl)
      · refine h.aside (fun key hmoves => ?_) fun _ => Iff.rfl
        obtain ⟨event, hevent, -⟩ := hmoves
        cases hevent
  | complete applicationId idempotencyKey requestHash result cacheResult retentionSeconds =>
      obtain ⟨hcomplete, rfl⟩ := hact
      rcases InMemoryIdempotencyStore.complete_cases hcomplete with
        ⟨-, rfl, rfl⟩ | ⟨-, rfl, rfl⟩ | ⟨x, rfl, rfl⟩
      · refine h.settle rfl ?_ (busy_of_ne rfl)
        rintro ⟨record, hrecord, -⟩
        cases (Function.update_self ..).symm.trans hrecord
      · refine h.settle rfl ?_ (busy_of_ne rfl)
        rintro ⟨record, hrecord, hprogress⟩
        cases (Function.update_self ..).symm.trans hrecord
        cases hprogress
      · refine h.aside (fun key hmoves => ?_) fun _ => Iff.rfl
        obtain ⟨event, hevent, hmoves⟩ := hmoves
        cases hevent
        exact hmoves
  | release applicationId idempotencyKey =>
      obtain ⟨hrelease, rfl⟩ := hact
      obtain ⟨rfl, rfl⟩ := Prod.mk.inj hrelease
      refine h.settle rfl ?_ (busy_of_ne rfl)
      rintro ⟨record, hrecord, -⟩
      cases (Function.update_self ..).symm.trans hrecord
  | _ =>
      cases (show (⟨store', now'⟩ : SharedStore) = s from hact)
      refine h.aside (fun key hmoves => ?_) fun _ => Iff.rfl
      obtain ⟨event, hevent, -⟩ := hmoves
      cases hevent

/-- **A record is in progress where the lease of a call stands**, in every run. -/
theorem marks (hstart : s₀.store.records = fun _ => none)
    (h : storeMachine.Lawful reservationProtocol none G s₀ s log) : leasing.Marks s.Busy log := by
  induction h with
  | init =>
      intro key
      refine iff_of_false ?_ fun ⟨i, hstands⟩ => by cases hstands
      rintro ⟨record, hrecord, -⟩
      rw [hstart] at hrecord
      cases hrecord
  | @tick s s' log _ htick _ ih =>
      intro key
      rw [← ih key, Busy, htick.1]
      exact Iff.rfl
  | call _ _ hact _ ih => exact marks_step hact ih

/-! ## A call that has ended -/

/-- The store holds no record in progress of the call, and a `reserve` that is answered IN_PROGRESS
is so because of another call. -/
structure Settled (i : ι) (applicationId idempotencyKey : String) (s : SharedStore)
    (log : List (Entry Ports SharedStore ι)) : Prop where
  gone : ¬ (s.Busy (applicationId, idempotencyKey) ∧
    leasing.StandsAt i (applicationId, idempotencyKey) log)
  retried : ∀ requestHash reservation s',
    storeMachine.act s (.reserve applicationId idempotencyKey requestHash) (.ok reservation) s' →
    reservation.outcome = .inProgress → ∃ j, j ≠ i ∧
      leasing.StandsAt j (applicationId, idempotencyKey) log

variable {applicationId idempotencyKey requestHash : String}

theorem busy_of_inProgress {reservation : IdempotencyReservation}
    (hact : storeMachine.act s (.reserve applicationId idempotencyKey requestHash)
      (.ok reservation) s')
    (hprogress : reservation.outcome = .inProgress) : s.Busy (applicationId, idempotencyKey) := by
  rcases InMemoryIdempotencyStore.reserve_cases hact.1 with
    ⟨record, hrecord, -, hanswer, -⟩ | ⟨-, hnew, -⟩ | ⟨x, hraised, -⟩
  · refine ⟨record, hrecord, ?_⟩
    rw [Except.ok.inj hanswer, InMemoryIdempotencyStore.Record.answer] at hprogress
    by_contra hdone
    rw [if_neg hdone] at hprogress
    split at hprogress <;> cases hprogress
  · rw [Except.ok.inj hnew] at hprogress
    cases hprogress
  · cases hraised

omit [DecidableEq ι] in
theorem settled_iff_not_standsAt (h : leasing.Marks s.Busy log) :
    Settled i applicationId idempotencyKey s log ↔
    ¬ leasing.StandsAt i (applicationId, idempotencyKey) log := by
  constructor
  · intro hsettled hstands
    exact hsettled.gone ⟨(h _).mpr ⟨i, hstands⟩, hstands⟩
  · intro hnot
    refine ⟨fun hheld => hnot hheld.2, fun requestHash reservation s' hact hprogress => ?_⟩
    obtain ⟨j, hstands⟩ := (h _).mp (busy_of_inProgress hact hprogress)
    refine ⟨j, ?_, hstands⟩
    rintro rfl
    exact hnot hstands

omit [DecidableEq ι] in
theorem reserves_of_take {entry : Entry Ports SharedStore ι} {key : String × String}
    {deadline : Int}
    (h : leasing.event entry = some (.take i key deadline)) : Reserves entry.event := by
  obtain ⟨j, s, port, reply⟩ := entry
  cases port with
  | reserve => trivial
  | complete => cases reply <;> cases h
  | release => cases reply <;> cases h
  | _ => cases h

omit [DecidableEq ι] in
theorem moves_iff {entry : Entry Ports SharedStore ι} (h : ¬ Reserves entry.event) :
    leasing.Moves (applicationId, idempotencyKey) entry ↔
    Settles applicationId idempotencyKey entry.event := by
  obtain ⟨j, s, port, reply⟩ := entry
  constructor
  · rintro ⟨event, hevent, hmoves⟩
    cases port with
    | reserve => exact absurd trivial h
    | complete =>
        cases reply with
        | ok _ =>
            cases hevent
            exact hmoves
        | error x =>
            cases hevent
            exact hmoves
    | release =>
        cases reply with
        | ok _ =>
            cases hevent
            exact hmoves
        | error x =>
            cases hevent
            exact hmoves
    | _ => cases hevent
  · intro hsettles
    cases port with
    | complete =>
        cases reply with
        | ok _ => exact ⟨_, rfl, hsettles⟩
        | error x => exact hsettles.elim
    | release =>
        cases reply with
        | ok _ => exact ⟨_, rfl, hsettles⟩
        | error x => exact hsettles.elim
    | _ => exact hsettles.elim

variable {orchestrators : ι → InvocationOrchestrator} {requests : ι → InferenceRequest}
  {staleReservation now : Int}
  {c : Config Ports SharedStore ι InferenceResult} {out : Except PyException InferenceResult}
  {reservation : IdempotencyReservation} {calls : List (Event Ports)}

theorem release_not_error (h : storeMachine.Lawful reservationProtocol none G s₀ s log)
    {x : PyException}
    (hmem : (⟨.release applicationId idempotencyKey, .error x⟩ : Event Ports) ∈ own i log) :
      False := by
  obtain ⟨entry, hentry, -, hevent⟩ := mem_own.mp hmem
  obtain ⟨later, past, rfl⟩ := List.append_of_mem hentry
  obtain ⟨-, -, s', hact, -⟩ := h.split
  obtain ⟨j, s, event⟩ := entry
  cases hevent
  cases (Prod.mk.inj hact.1).1

/-- **A call that has ended has settled its reservation unless it was stranded**, or somebody else
has moved the key. -/
theorem settled_iff
    (h : storeMachine.Reachable G (start orchestrators requests staleReservation now) c)
    (hend : c.threads i = Prog.ofExcept out)
    (hown : own i c.log = ⟨.reserve applicationId idempotencyKey requestHash,
      .ok reservation⟩ :: calls)
    (hnew : reservation.outcome = .new) :
    Settled i applicationId idempotencyKey c.shared c.log ↔
      ¬ (Stranded (orchestrators i) (requests i) idempotencyKey requestHash calls ∧
        leasing.Untouched i (applicationId, idempotencyKey) c.log) := by
  have hlawful := lawful_invoke h
  have hrun : Run ((orchestrators i).invoke (requests i)) (own i c.log) out := by
    have hsteps := h.steps rfl i
    rw [hend] at hsteps
    exact hsteps
  rw [hown] at hrun
  obtain ⟨rfl, hexit⟩ := exit_of_reserved hrun hnew
  have hrelease : ∀ x, (⟨.release (requests i).applicationId idempotencyKey, .error x⟩ :
      Event Ports) ∉ calls :=
    fun x hmem => release_not_error hlawful (hown ▸ List.mem_cons_of_mem _ hmem)
  have hstands := @Lease.Leasing.standsAt_iff_own _ _ _ _ _ _ _ leasing c.log i
    ((requests i).applicationId, idempotencyKey) _ calls
      (Settles (requests i).applicationId idempotencyKey) ?_ ?_
  · rw [settled_iff_not_standsAt (marks rfl hlawful), hstands, ← hexit.stranded_iff hrelease]
  · intro later entry past deadline hlog htake
    have hthread : entry.thread = i := (leasing.actor entry _ htake).symm
    rw [hlog] at hown
    have hreserves : entry.event ∉ calls :=
      fun hmem => hexit.not_reserves _ hmem (reserves_of_take htake)
    obtain ⟨between, hfirst, hlater⟩ :=
      own_after (hown.trans (List.singleton_append ..).symm) hthread hreserves
    have hlength := congrArg List.length hfirst
    simp only [List.length_append, List.length_cons, List.length_nil] at hlength
    have hbetween : between = [] := List.length_eq_zero_iff.mp (by omega)
    rw [hlater, hbetween, List.nil_append]
  · intro entry _ hmem
    exact moves_iff (hexit.not_reserves _ hmem)

end SharedStore

end ModelRouter
