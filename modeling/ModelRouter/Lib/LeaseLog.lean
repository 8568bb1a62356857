import ModelRouter.Lib.Lease
import ModelRouter.Lib.Threads

/-!
# Logs of leases

A `Reading` reads the log of a machine's threads as what clients did with leases: a call is an event
of its own thread or none. A `Leasing` also reads the machine's state as deadlines of keys.

* `Agrees.key_eq_holding` : an observer of one thread that agrees with the reading call by call
  knows the key of the lease the thread holds;
* `Timely`, `SettlesInTime` : all threads that hold a lease, or only those that settle one, are
  inside its window;
* `exclusive`, `undisturbing` : what follows where the leases are owned;
* `standsAt_iff`, `standsAt_iff_own` : whose lease stands at a key, read off the log.
-/

namespace Lease
open Effects

/-- What a call does to the leases. -/
structure Reading (S : Sig) (σ κ ι τ : Type) where
  event : Entry S σ ι → Option (Event κ ι τ)
  actor : ∀ entry, ∀ event' ∈ event entry, event'.actor = entry.thread

variable {S : Sig} {σ κ ι τ φ : Type} [DecidableEq ι]

/-- The key of the lease its client holds after the event. -/
def Event.heldKey : Event κ ι τ → Option κ
  | take _ key _ => some key
  | settle _ _ | abandon _ => none

theorem holding_actor (event : Event κ ι τ) (events : List (Event κ ι τ)) :
    (holding event.actor (event :: events)).map (·.1) = event.heldKey := by
  cases event with
  | take i key deadline => exact congrArg _ (holding_take_self i key deadline events)
  | settle i key => exact congrArg _ (holding_settle_self i key events)
  | abandon i => exact congrArg _ (holding_abandon_self i events)

namespace Reading

variable (reading : Reading S σ κ ι τ)

def events (log : List (Entry S σ ι)) : List (Event κ ι τ) := log.filterMap reading.event

variable {reading} {entry : Entry S σ ι} {event : Event κ ι τ} {log : List (Entry S σ ι)}

omit [DecidableEq ι] in
theorem events_cons_none (h : reading.event entry = none) :
    reading.events (entry :: log) = reading.events log :=
  List.filterMap_cons_none h

omit [DecidableEq ι] in
theorem events_cons_some (h : reading.event entry = some event) :
    reading.events (entry :: log) = event :: reading.events log :=
  List.filterMap_cons_some h

/-- A call moves its own lease only. -/
theorem holding_cons_of_ne {i : ι} (h : entry.thread ≠ i) :
    holding i (reading.events (entry :: log)) = holding i (reading.events log) := by
  cases hevent : reading.event entry with
  | none => rw [events_cons_none hevent]
  | some event =>
      rw [events_cons_some hevent]
      refine Lease.holding_cons_of_ne i _ ?_
      rw [reading.actor entry event hevent]
      exact h

/-- The observer agrees with the reading call by call. -/
def Agrees (reading : Reading S σ κ ι τ) (M : Monitor S φ) (key : φ → Option κ) : Prop :=
  ∀ phase entry, key (M.next phase entry.event.call entry.event.reply) =
    (reading.event entry).elim (key phase) Event.heldKey

/-- **The observer of a thread knows the key the thread holds.** -/
theorem Agrees.key_eq_holding {M : Monitor S φ} {key : φ → Option κ}
    (h : reading.Agrees M key) {m₀ : φ} (hinit : key m₀ = none) (i : ι) (log : List (Entry S σ ι)) :
    key (M.phase m₀ i log) = (holding i (reading.events log)).map (·.1) := by
  induction log with
  | nil => exact hinit
  | cons entry log ih =>
      by_cases hi : entry.thread = i
      · subst hi
        rw [Monitor.phase_cons_self, h]
        cases hevent : reading.event entry with
        | none =>
            rw [events_cons_none hevent]
            exact ih
        | some event =>
            have hactor := reading.actor entry event hevent
            rw [events_cons_some hevent, ← hactor, holding_actor, Option.elim_some]
      · rw [Monitor.phase_cons_of_ne hi, holding_cons_of_ne hi]
        exact ih

theorem Agrees.holding {M : Monitor S φ} {key : φ → Option κ} (h : reading.Agrees M key) {m₀ : φ}
    (hinit : key m₀ = none) {i : ι} {held : κ} (hheld : key (M.phase m₀ i log) = some held) :
    ∃ deadline, Lease.holding i (reading.events log) = some (held, deadline) := by
  rw [h.key_eq_holding hinit] at hheld
  obtain ⟨⟨key', deadline⟩, hholding, rfl⟩ := Option.map_eq_some_iff.mp hheld
  exact ⟨deadline, hholding⟩

end Reading

/-! ## Machines that lease -/

/-- What a call does to the leases, and until when each key is taken. -/
structure Leasing (S : Sig) (σ κ ι τ : Type) [Preorder τ] extends Reading S σ κ ι τ where
  expiry : Expiry τ
  now : σ → τ
  deadline : σ → κ → Option τ

namespace Leasing

variable [Preorder τ] (leasing : Leasing S σ κ ι τ)

def state (s : σ) (log : List (Entry S σ ι)) : State κ ι τ where
  now := leasing.now s
  deadline := leasing.deadline s
  events := leasing.events log

/-- The thread has taken a lease of the key and not settled it. -/
def InFlight (i : ι) (key : κ) (log : List (Entry S σ ι)) : Prop :=
  ∃ deadline, holding i (leasing.events log) = some (key, deadline)

/-- Every thread that holds a lease is inside its window. -/
def Timely (s : σ) (log : List (Entry S σ ι)) : Prop :=
  ∀ i, ∀ lease ∈ holding i (leasing.events log), ¬ leasing.expiry.Expired lease.2 (leasing.now s)

/-- The last call settles a lease inside its window, if it settles one. -/
def SettlesInTime (_ : σ) : List (Entry S σ ι) → Prop
  | [] => True
  | entry :: past => ∀ event ∈ leasing.event entry, event.Settles →
    ∀ lease ∈ holding entry.thread (leasing.events past),
      ¬ leasing.expiry.Expired lease.2 (leasing.now entry.before)

instance [DecidableRel leasing.expiry.Expired] (s : σ) (log : List (Entry S σ ι)) :
    Decidable (leasing.SettlesInTime s log) :=
  match log with
  | [] => isTrue trivial
  | entry :: past => inferInstanceAs (Decidable (∀ event ∈ leasing.event entry, event.Settles →
      ∀ lease ∈ holding entry.thread (leasing.events past),
        ¬ leasing.expiry.Expired lease.2 (leasing.now entry.before)))

instance {n : Nat} (leasing : Leasing S σ κ (Fin n) τ) [DecidableRel leasing.expiry.Expired] (s : σ)
    (log : List (Entry S σ (Fin n))) : Decidable (leasing.Timely s log) :=
  inferInstanceAs (Decidable (∀ i, ∀ lease ∈ holding i (leasing.events log),
    ¬ leasing.expiry.Expired lease.2 (leasing.now s)))

variable {leasing} {s s' : σ} {log past : List (Entry S σ ι)} {entry : Entry S σ ι}
  {i j : ι} {key : κ}

theorem timely_nil : leasing.Timely s [] := by
  intro i lease hlease
  cases hlease

/-- Where every thread is inside its window, it settles inside its window. -/
theorem Timely.settlesInTime (h : leasing.Timely entry.before past) :
    leasing.SettlesInTime s' (entry :: past) :=
  fun _ _ _ lease hlease => h entry.thread lease hlease

variable [DecidableEq κ]

/-- **A key has one thread inside its window.** -/
theorem exclusive (howned : Owned leasing.expiry (leasing.state s log)) (h : leasing.Timely s log)
    (hi : leasing.InFlight i key log) (hj : leasing.InFlight j key log) : i = j := by
  obtain ⟨deadline, hi⟩ := hi
  obtain ⟨deadline', hj⟩ := hj
  exact howned.unique ⟨hi, h i _ hi⟩ ⟨hj, h j _ hj⟩

/-- The call moves the key. -/
def Moves (leasing : Leasing S σ κ ι τ) (key : κ) (entry : Entry S σ ι) : Prop :=
  ∃ event ∈ leasing.event entry, event.Moves key

/-- The lease of the thread stands at the key. -/
def StandsAt (leasing : Leasing S σ κ ι τ) (i : ι) (key : κ) (log : List (Entry S σ ι)) : Prop :=
  client key (leasing.events log) = some i

/-- The last call that took the key, followed by calls that satisfy `P`. -/
def TakenThen (leasing : Leasing S σ κ ι τ) (i : ι) (key : κ) (P : Entry S σ ι → Prop)
    (log : List (Entry S σ ι)) : Prop :=
  ∃ later entry past deadline, log = later ++ entry :: past ∧
    leasing.event entry = some (.take i key deadline) ∧
    ∀ entry' ∈ later, P entry'

omit [DecidableEq ι] in
theorem standsAt_cons_of_not_moves (h : ¬ leasing.Moves key entry) :
    leasing.StandsAt i key (entry :: log) ↔ leasing.StandsAt i key log := by
  unfold StandsAt
  cases hevent : leasing.event entry with
  | none => rw [Reading.events_cons_none hevent]
  | some event =>
      rw [Reading.events_cons_some hevent, client_cons_of_not_moves fun hmoves =>
        h ⟨event, hevent, hmoves⟩]

omit [DecidableEq ι] in
/-- A lease stands at its key until a call moves the key. -/
theorem standsAt_iff : leasing.StandsAt i key log ↔
    leasing.TakenThen i key (fun entry => ¬ leasing.Moves key entry) log := by
  induction log with
  | nil =>
      refine iff_of_false (fun h => by cases h) ?_
      rintro ⟨later, entry, past, deadline, hlog, -⟩
      simp at hlog
  | cons entry log ih =>
      by_cases hmoves : leasing.Moves key entry
      · obtain ⟨event, hevent, hmoves'⟩ := hmoves
        have hevents : leasing.events (entry :: log) = event :: leasing.events log :=
          Reading.events_cons_some hevent
        constructor
        · intro h
          rw [StandsAt, hevents] at h
          obtain ⟨deadline, rfl⟩ := take_of_client hmoves' h
          exact ⟨[], entry, log, deadline, rfl, hevent, fun _ hmem => by cases hmem⟩
        · rintro ⟨later, entry', past, deadline, hlog, htake, hlater⟩
          cases later with
          | nil =>
              obtain ⟨rfl, rfl⟩ := List.cons.inj hlog
              rw [StandsAt, Reading.events_cons_some htake]
              exact if_pos rfl
          | cons entry'' later =>
              obtain ⟨rfl, -⟩ := List.cons.inj hlog
              exact absurd ⟨event, hevent, hmoves'⟩ (hlater _ List.mem_cons_self)
      · rw [standsAt_cons_of_not_moves hmoves, ih]
        constructor
        · rintro ⟨later, entry', past, deadline, rfl, htake, hlater⟩
          refine ⟨entry :: later, entry', past, deadline, rfl, htake, fun entry'' hmem => ?_⟩
          rcases List.mem_cons.mp hmem with rfl | hmem
          · exact hmoves
          · exact hlater _ hmem
        · rintro ⟨later, entry', past, deadline, hlog, htake, hlater⟩
          cases later with
          | nil =>
              obtain ⟨rfl, rfl⟩ := List.cons.inj hlog
              exact absurd ⟨_, htake, rfl⟩ hmoves
          | cons entry'' later =>
              obtain ⟨rfl, rfl⟩ := List.cons.inj hlog
              exact ⟨later, entry', past, deadline, rfl, htake, fun _ hmem =>
                hlater _ (List.mem_cons_of_mem _ hmem)⟩

/-- The thread has taken the key, and no other thread has moved it since. -/
def Untouched (leasing : Leasing S σ κ ι τ) (i : ι) (key : κ) (log : List (Entry S σ ι)) : Prop :=
  leasing.TakenThen i key (fun entry => entry.thread ≠ i → ¬ leasing.Moves key entry) log

/-- **The lease of a thread stands when nobody has moved its key since**: not the thread itself,
whose calls since are `after`, and no other. -/
theorem standsAt_iff_own {after : List (Effects.Event S)} {settles : Effects.Event S → Prop}
    (hafter : ∀ later entry past deadline, log = later ++ entry :: past →
      leasing.event entry = some (.take i key deadline) → own i later = after)
    (hsettles : ∀ entry, entry.thread = i → entry.event ∈ after →
      (leasing.Moves key entry ↔ settles entry.event)) :
    leasing.StandsAt i key log ↔ (∀ event ∈ after, ¬ settles event) ∧
      leasing.Untouched i key log := by
  rw [standsAt_iff]
  constructor
  · rintro ⟨later, entry, past, deadline, hlog, htake, hlater⟩
    refine ⟨fun event hevent hsettled => ?_, later, entry, past, deadline, hlog, htake,
      fun _ hmem _ => hlater _ hmem⟩
    rw [← hafter later entry past deadline hlog htake] at hevent
    obtain ⟨entry', hmem, hthread, rfl⟩ := mem_own.mp hevent
    rw [hafter later entry past deadline hlog htake] at hevent
    exact hlater entry' hmem ((hsettles entry' hthread hevent).mpr hsettled)
  · rintro ⟨hnone, later, entry, past, deadline, hlog, htake, hlater⟩
    refine ⟨later, entry, past, deadline, hlog, htake, fun entry' hmem hmoves => ?_⟩
    by_cases hthread : entry'.thread = i
    · have hevent : entry'.event ∈ after := by
        rw [← hafter later entry past deadline hlog htake]
        exact mem_own.mpr ⟨entry', hmem, hthread, rfl⟩
      exact hnone _ hevent ((hsettles entry' hthread hevent).mp hmoves)
    · exact hlater entry' hmem hthread hmoves

/-- The busy keys are those at which a lease stands. -/
def Marks (leasing : Leasing S σ κ ι τ) (busy : κ → Prop) (log : List (Entry S σ ι)) : Prop :=
  ∀ key, busy key ↔ ∃ i, leasing.StandsAt i key log

section Marks

variable {busy busy' : κ → Prop}

omit [DecidableEq ι] in
theorem Marks.aside (h : leasing.Marks busy log) (hmoves : ∀ key, ¬ leasing.Moves key entry)
    (hbusy : ∀ key, busy' key ↔ busy key) : leasing.Marks busy' (entry :: log) := by
  intro key
  rw [hbusy key, h key]
  exact exists_congr fun i => (standsAt_cons_of_not_moves (hmoves key)).symm

omit [DecidableEq ι] in
theorem Marks.take {deadline : τ} (h : leasing.Marks busy log)
    (hevent : leasing.event entry = some (.take i key deadline)) (hbusy : busy' key)
    (hother : ∀ key', key' ≠ key → (busy' key' ↔ busy key')) :
      leasing.Marks busy' (entry :: log) := by
  intro key'
  by_cases hkey : key' = key
  · subst hkey
    refine iff_of_true hbusy ⟨i, ?_⟩
    rw [StandsAt, Reading.events_cons_some hevent]
    exact if_pos rfl
  · rw [hother key' hkey, h key']
    refine exists_congr fun j => (standsAt_cons_of_not_moves ?_).symm
    rintro ⟨event, hsome, hmoves⟩
    cases hevent.symm.trans hsome
    exact hkey hmoves.symm

omit [DecidableEq ι] in
theorem Marks.settle (h : leasing.Marks busy log)
    (hevent : leasing.event entry = some (.settle i key))
    (hbusy : ¬ busy' key) (hother : ∀ key', key' ≠ key → (busy' key' ↔ busy key')) :
    leasing.Marks busy' (entry :: log) := by
  intro key'
  by_cases hkey : key' = key
  · subst hkey
    refine iff_of_false hbusy ?_
    rintro ⟨j, hstands⟩
    rw [StandsAt, Reading.events_cons_some hevent, client, if_pos rfl] at hstands
    cases hstands
  · rw [hother key' hkey, h key']
    refine exists_congr fun j => (standsAt_cons_of_not_moves ?_).symm
    rintro ⟨event, hsome, hmoves⟩
    cases hevent.symm.trans hsome
    exact hkey hmoves.symm

end Marks

/-- No call of the log has disturbed a lease. -/
def Undisturbed (leasing : Leasing S σ κ ι τ) (log : List (Entry S σ ι)) : Prop :=
  ∀ later entry past, log = later ++ entry :: past →
    ∀ event ∈ leasing.event entry,
      event.Undisturbing leasing.expiry (leasing.state entry.before past)

/-- A call that is a step of the leases disturbs nobody. -/
theorem undisturbing (howned : Owned leasing.expiry (leasing.state entry.before past))
    (hstep : Relation.ReflGen (Step leasing.expiry) (leasing.state entry.before past)
      (leasing.state s' (entry :: past)))
    {event : Event κ ι τ} (hevent : event ∈ leasing.event entry) :
    event.Undisturbing leasing.expiry (leasing.state entry.before past) := by
  have hevents : (leasing.state s' (entry :: past)).events =
      event :: (leasing.state entry.before past).events :=
    Reading.events_cons_some hevent
  generalize hs' : leasing.state s' (entry :: past) = after at hstep hevents
  cases hstep with
  | refl => exact absurd hevents.symm (List.cons_ne_self _ _)
  | single hstep => exact hstep.undisturbing howned hevents

/-- A log whose last call takes a key from a thread inside its window. -/
theorem not_undisturbed {deadline deadline' now : τ}
    (hlast : log.head?.map (fun entry => (leasing.event entry, leasing.now entry.before)) =
      some (some (.take i key deadline), now))
    (hholding : holding j (leasing.events log.tail) = some (key, deadline'))
    (hwindow : ¬ leasing.expiry.Expired deadline' now) :
    ¬ leasing.Undisturbed log := by
  intro h
  cases log with
  | nil => cases hlast
  | cons entry past =>
      obtain ⟨hevent, rfl⟩ := Prod.mk.inj (Option.some.inj hlast)
      exact h [] entry past rfl _ hevent j deadline' ⟨hholding, hwindow⟩

end Leasing

end Lease
