import Mathlib.Logic.Relation
import Mathlib.Order.Basic

/-!
# Leases

Clients take leases on keys. A key is taken until a deadline; a lease is settled by its client,
which frees the key or leaves it taken by nobody until a further deadline. `Event` is what clients
did, the latest first; `holding` is the lease a client has not settled, `client` whose lease stands
at a key.

* `Step` : what leases do when every lease is settled within its window; clients that never settle
  are free to outlive theirs;
* `Owned` : inside its window a client's lease stands at its key; `Step.owned`, `owned_of_run`;
* `Owned.unique`, `Owned.not_free` : so a key has one client inside its window, and nobody else can
  take it;
* `Step.undisturbing` : so a client settles its own lease only.
-/

namespace Lease

/-- When a deadline has passed. -/
structure Expiry (τ : Type) [Preorder τ] where
  Expired : τ → τ → Prop
  mono : ∀ {deadline now later : τ}, Expired deadline now → now ≤ later → Expired deadline later

inductive Event (κ ι τ : Type) where
  | take (client : ι) (key : κ) (deadline : τ)
  | settle (client : ι) (key : κ)
  | abandon (client : ι)
deriving DecidableEq

variable {κ ι τ : Type}

def Event.actor : Event κ ι τ → ι
  | take i _ _ | settle i _ | abandon i => i

/-- The event takes or settles the key. -/
def Event.Moves (key : κ) : Event κ ι τ → Prop
  | take _ key' _ | settle _ key' => key' = key
  | abandon _ => False

def Event.Settles : Event κ ι τ → Prop
  | settle _ _ => True
  | _ => False

instance (event : Event κ ι τ) : Decidable event.Settles :=
  match event with
  | .settle _ _ => isTrue trivial
  | .take _ _ _ | .abandon _ => isFalse id

section Holding

variable [DecidableEq ι]

/-- The key and the deadline of the lease the client has taken and not settled. -/
def holding (i : ι) : List (Event κ ι τ) → Option (κ × τ)
  | [] => none
  | .take j key deadline :: events => if j = i then some (key, deadline) else holding i events
  | .settle j _ :: events => if j = i then none else holding i events
  | .abandon j :: events => if j = i then none else holding i events

variable (i : ι) (key : κ) (deadline : τ) (events : List (Event κ ι τ))

@[simp] theorem holding_take_self :
    holding i (.take i key deadline :: events) = some (key, deadline) := if_pos rfl

@[simp] theorem holding_settle_self : holding i (.settle i key :: events) = none := if_pos rfl

@[simp] theorem holding_abandon_self :
    holding i (.abandon i :: events : List (Event κ ι τ)) = none := if_pos rfl

/-- A client's lease is moved by its own events only. -/
theorem holding_cons_of_ne {event : Event κ ι τ} (h : event.actor ≠ i) :
    holding i (event :: events) = holding i events := by
  cases event <;> exact if_neg h

end Holding

/-- Whose lease stands at the key. -/
def client [DecidableEq κ] (key : κ) : List (Event κ ι τ) → Option ι
  | [] => none
  | .take j key' _ :: events => if key' = key then some j else client key events
  | .settle _ key' :: events => if key' = key then none else client key events
  | .abandon _ :: events => client key events

section Client

variable [DecidableEq κ] {key : κ} {event : Event κ ι τ} {events : List (Event κ ι τ)}

theorem client_cons_of_not_moves (h : ¬ event.Moves key) :
    client key (event :: events) = client key events := by
  cases event with
  | take j key' deadline => exact if_neg h
  | settle j key' => exact if_neg h
  | abandon j => rfl

/-- The client of a key has taken it in the last event that moved it. -/
theorem take_of_client {i : ι} (hmoves : event.Moves key)
    (h : client key (event :: events) = some i) :
    ∃ deadline, event = .take i key deadline := by
  cases event with
  | take j key' deadline =>
      have hkey : key' = key := hmoves
      rw [client, if_pos hkey] at h
      rw [hkey, Option.some.inj h]
      exact ⟨deadline, rfl⟩
  | settle j key' =>
      have hkey : key' = key := hmoves
      rw [client, if_pos hkey] at h
      cases h
  | abandon j => exact hmoves.elim

end Client

/-- `deadline` is until when a key is taken, by a lease or by nobody. -/
structure State (κ ι τ : Type) where
  now : τ
  deadline : κ → Option τ
  events : List (Event κ ι τ)

variable [DecidableEq κ] [DecidableEq ι] [Preorder τ] (expiry : Expiry τ)

/-- A client holds the key and is inside its window. -/
def InWindow (s : State κ ι τ) (i : ι) (key : κ) (deadline : τ) : Prop :=
  holding i s.events = some (key, deadline) ∧ ¬ expiry.Expired deadline s.now

/-- The key may be taken. -/
def Free (s : State κ ι τ) (key : κ) : Prop :=
  ∀ deadline ∈ s.deadline key, expiry.Expired deadline s.now

inductive Step (s s' : State κ ι τ) : Prop
  | take {i : ι} {key : κ} {deadline : τ} (hfree : Free expiry s key) (hnow : s'.now = s.now)
      (hdeadline : s'.deadline = Function.update s.deadline key (some deadline))
      (hevents : s'.events = .take i key deadline :: s.events)
  | settle {i : ι} {key : κ} {deadline : τ} {left : Option τ}
      (hwindow : InWindow expiry s i key deadline)
      (hnow : s'.now = s.now) (hdeadline : s'.deadline = Function.update s.deadline key left)
      (hevents : s'.events = .settle i key :: s.events)
  | abandon {i : ι} (hnow : s'.now = s.now) (hdeadline : s'.deadline = s.deadline)
      (hevents : s'.events = .abandon i :: s.events)
  | wait (hnow : s.now ≤ s'.now) (hdeadline : s'.deadline = s.deadline)
      (hevents : s'.events = s.events)

/-- Inside its window a client's lease stands at its key. -/
def Owned (s : State κ ι τ) : Prop :=
  ∀ i key deadline, InWindow expiry s i key deadline →
    s.deadline key = some deadline ∧ client key s.events = some i

variable {expiry} {s s' : State κ ι τ} {i j : ι} {key : κ} {deadline deadline' : τ}

/-- **A key has one client inside its window.** -/
theorem Owned.unique (h : Owned expiry s) (hi : InWindow expiry s i key deadline)
    (hj : InWindow expiry s j key deadline') : i = j := by
  have hclient := (h i key deadline hi).2
  rw [(h j key deadline' hj).2] at hclient
  exact (Option.some.inj hclient).symm

/-- **Nobody can take a key whose client is inside its window.** -/
theorem Owned.not_free (h : Owned expiry s) (hi : InWindow expiry s i key deadline) :
    ¬ Free expiry s key :=
  fun hfree => hi.2 (hfree deadline (h i key deadline hi).1)

omit [DecidableEq κ] in
/-- A client is inside its window as long as others act and the clock has not passed its
deadline. -/
theorem InWindow.before {event : Event κ ι τ} (hwindow : InWindow expiry s' i key deadline)
    (hevents : s'.events = event :: s.events) (hnow : s'.now = s.now) (hother : event.actor ≠ i) :
    InWindow expiry s i key deadline := by
  obtain ⟨hheld, hexpired⟩ := hwindow
  rw [hevents, holding_cons_of_ne i s.events hother] at hheld
  rw [hnow] at hexpired
  exact ⟨hheld, hexpired⟩

theorem Step.owned (hstep : Step expiry s s') (h : Owned expiry s) : Owned expiry s' := by
  intro i key deadline hwindow
  have hheld := hwindow.1
  cases hstep with
  | @take j key' deadline' hfree hnow hdeadline hevents =>
      rw [hdeadline, hevents]
      by_cases hi : j = i
      · subst hi
        rw [hevents, holding_take_self] at hheld
        obtain ⟨rfl, rfl⟩ := Prod.mk.inj (Option.some.inj hheld)
        exact ⟨Function.update_self .., if_pos rfl⟩
      · have hbefore := hwindow.before hevents hnow hi
        -- the key that is taken was free, so it is another one
        have hkey : key' ≠ key := fun hkey => h.not_free hbefore (hkey ▸ hfree)
        obtain ⟨hstands, hclient⟩ := h i key deadline hbefore
        exact ⟨(Function.update_of_ne hkey.symm _ _).trans hstands, (if_neg hkey).trans hclient⟩
  | @settle j key' deadline' left hsettled hnow hdeadline hevents =>
      have hi : j ≠ i := by
        rintro rfl
        simp [hevents] at hheld
      have hbefore := hwindow.before hevents hnow hi
      -- the client of a key inside its window is the only one, so `j` settles another key
      have hkey : key' ≠ key := by
        rintro rfl
        exact hi (h.unique hsettled hbefore)
      obtain ⟨hstands, hclient⟩ := h i key deadline hbefore
      rw [hdeadline, hevents]
      exact ⟨(Function.update_of_ne hkey.symm _ _).trans hstands, (if_neg hkey).trans hclient⟩
  | @abandon j hnow hdeadline hevents =>
      have hi : j ≠ i := by
        rintro rfl
        simp [hevents] at hheld
      rw [hdeadline, hevents]
      exact h i key deadline (hwindow.before hevents hnow hi)
  | wait hnow hdeadline hevents =>
      rw [hevents] at hheld
      have hbefore : InWindow expiry s i key deadline :=
        ⟨hheld, fun hexpired => hwindow.2 (expiry.mono hexpired hnow)⟩
      rw [hdeadline, hevents]
      exact h i key deadline hbefore

/-- What an event must not do: settle a lease that is not its client's own, or take a key from a
client inside its window. -/
def Event.Undisturbing (expiry : Expiry τ) (s : State κ ι τ) : Event κ ι τ → Prop
  | take _ key _ => ∀ j deadline, ¬ InWindow expiry s j key deadline
  | settle i key => client key s.events = some i
  | abandon _ => True

/-- **A step disturbs nobody.** -/
theorem Step.undisturbing {event : Event κ ι τ} (hstep : Step expiry s s') (h : Owned expiry s)
    (hevents : s'.events = event :: s.events) : event.Undisturbing expiry s := by
  cases hstep with
  | take hfree _ _ htake =>
      rw [htake] at hevents
      obtain ⟨rfl, -⟩ := List.cons.inj hevents
      exact fun j deadline hwindow => h.not_free hwindow hfree
  | settle hwindow _ _ hsettle =>
      rw [hsettle] at hevents
      obtain ⟨rfl, -⟩ := List.cons.inj hevents
      exact (h _ _ _ hwindow).2
  | abandon _ _ habandon =>
      rw [habandon] at hevents
      obtain ⟨rfl, -⟩ := List.cons.inj hevents
      trivial
  | wait _ _ hwait =>
      rw [hwait] at hevents
      exact absurd hevents.symm (List.cons_ne_self _ _)

/-- **In every run from a state without leases, inside its window a client's lease stands at its
key.** -/
theorem owned_of_run {s₀ : State κ ι τ} (hstart : s₀.events = [])
    (hrun : Relation.ReflTransGen (Step expiry) s₀ s) : Owned expiry s := by
  induction hrun with
  | refl =>
      intro i key deadline hwindow
      have hheld := hwindow.1
      rw [hstart] at hheld
      cases hheld
  | tail _ hstep ih => exact hstep.owned ih

end Lease
