import ModelRouter.Domain.Invocation
import Mathlib.Logic.Function.Basic

/-!
# The in-memory idempotency store

`_records` is a function from (application, key) to at most one record; a record is live before its
`expires_at`. An instant is a number of microseconds since the epoch. Each operation is atomic (the
lock) and is given the reading of the clock it makes; it returns or raises, and leaves the store.

* `reserve_live`, `reserve_free` : what `reserve` answers;
* `reserve_cases`, `complete_cases` : what each of them leaves in the store.
-/

namespace ModelRouter

/-! ## Instants -/

/-- `datetime.min` and `datetime.max`. -/
def datetimeMin : Int := -62135596800000000
def datetimeMax : Int := 253402300799999999

/-- A `datetime` plus a `timedelta`: what is out of range is refused. -/
def plusDelta (instant delta : Int) : Except PyException Int :=
  if datetimeMin ≤ instant + delta ∧ instant + delta ≤ datetimeMax then .ok (instant + delta)
  else .error (.other "OverflowError")

theorem plusDelta_ok {instant delta later : Int} (h : plusDelta instant delta = .ok later) :
    later = instant + delta := by
  unfold plusDelta at h
  split at h
  · exact (Except.ok.inj h).symm
  · cases h

/-! ## The store -/

namespace InMemoryIdempotencyStore

structure Record where
  requestHash : String
  inProgress : Bool
  result : Option InferenceResult
  expiresAt : Int
deriving DecidableEq, Repr

def Record.Live (record : Record) (now : Int) : Prop := now < record.expiresAt

instance (record : Record) (now : Int) : Decidable (record.Live now) :=
  inferInstanceAs (Decidable (now < record.expiresAt))

end InMemoryIdempotencyStore

open InMemoryIdempotencyStore

/-- `staleReservation` is `timedelta(seconds=stale_reservation_seconds)`, in microseconds. -/
structure InMemoryIdempotencyStore where
  staleReservation : Int := 300000000
  records : String × String → Option Record := fun _ => none

namespace InMemoryIdempotencyStore

variable (store : InMemoryIdempotencyStore) (now : Int)
  (applicationId idempotencyKey requestHash : String)

/-- The answer of a live record. -/
def Record.answer (record : Record) : IdempotencyReservation :=
  if record.requestHash ≠ requestHash then { outcome := .conflict }
  else if record.inProgress then { outcome := .inProgress }
  else { outcome := .completed, cachedResult := record.result }

def write (record : Record) : InMemoryIdempotencyStore :=
  { store with records := Function.update store.records (applicationId, idempotencyKey) (some record) }

/-- `self._records.pop(key, None)`. -/
def pop : InMemoryIdempotencyStore :=
  { store with records := Function.update store.records (applicationId, idempotencyKey) none }

def reserve : Except PyException IdempotencyReservation × InMemoryIdempotencyStore :=
  match (store.records (applicationId, idempotencyKey)).filter (·.Live now) with
  | some record => (.ok (record.answer requestHash), store)
  | none => match plusDelta now store.staleReservation with
    | .error x => (.error x, store)
    | .ok expiresAt =>
      (.ok { outcome := .new },
        store.write applicationId idempotencyKey { requestHash, inProgress := true, result := none, expiresAt })

def complete (result : InferenceResult) (cacheResult : Bool) (retentionSeconds : Nat) :
    Except PyException Unit × InMemoryIdempotencyStore :=
  if !cacheResult then (.ok (), store.pop applicationId idempotencyKey)
  else match plusDelta now (retentionSeconds * 1000000) with
    | .error x => (.error x, store)
    | .ok expiresAt =>
      (.ok (), store.write applicationId idempotencyKey
        { requestHash, inProgress := false, result := some result, expiresAt })

def release : Except PyException Unit × InMemoryIdempotencyStore := (.ok (), store.pop applicationId idempotencyKey)

variable {store now applicationId idempotencyKey requestHash}

/-! ## What an operation does -/

/-- A live record answers, and the store is left as it is. -/
theorem reserve_live {record : Record}
    (hrecord : store.records (applicationId, idempotencyKey) = some record)
    (hlive : record.Live now) :
    store.reserve now applicationId idempotencyKey requestHash =
      (.ok (record.answer requestHash), store) := by
  have hfilter : (store.records (applicationId, idempotencyKey)).filter (·.Live now) =
      some record := by
    rw [hrecord, Option.filter_some, if_pos (by simpa using hlive)]
  rw [reserve, hfilter]

/-- No record at the key is live. -/
def Free (store : InMemoryIdempotencyStore) (now : Int) (applicationId idempotencyKey : String) :
    Prop :=
  ∀ record ∈ store.records (applicationId, idempotencyKey), ¬ record.Live now

instance (store : InMemoryIdempotencyStore) (now : Int) (applicationId idempotencyKey : String) :
    Decidable (store.Free now applicationId idempotencyKey) :=
  inferInstanceAs (Decidable (∀ record ∈ store.records (applicationId, idempotencyKey), ¬ record.Live now))

/-- Without a live record a reservation is written, if its end is an instant. -/
theorem reserve_free (hfree : store.Free now applicationId idempotencyKey) :
    store.reserve now applicationId idempotencyKey requestHash =
      match plusDelta now store.staleReservation with
      | .error x => (.error x, store)
      | .ok expiresAt => (.ok { outcome := .new }, store.write applicationId idempotencyKey
          { requestHash, inProgress := true, result := none, expiresAt }) := by
  have hfilter : (store.records (applicationId, idempotencyKey)).filter (·.Live now) = none := by
    rw [Option.filter_eq_none_iff]
    intro record hrecord
    simpa using hfree record hrecord
  rw [reserve, hfilter]

theorem free_or_live (store : InMemoryIdempotencyStore) (now : Int)
    (applicationId idempotencyKey : String) :
    store.Free now applicationId idempotencyKey ∨
      ∃ record, store.records (applicationId, idempotencyKey) = some record ∧ record.Live now := by
  by_cases h : store.Free now applicationId idempotencyKey
  · exact Or.inl h
  · unfold Free at h
    push Not at h
    obtain ⟨record, hrecord, hlive⟩ := h
    exact Or.inr ⟨record, hrecord, hlive⟩

theorem answer_ne_new (record : Record) (requestHash : String) :
    (record.answer requestHash).outcome ≠ .new := by
  unfold Record.answer
  split
  · simp
  · split <;> simp

/-- `reserve` answers from a live record, writes a reservation, or raises and does nothing. -/
theorem reserve_cases {reply : Except PyException IdempotencyReservation}
    {store' : InMemoryIdempotencyStore}
    (h : store.reserve now applicationId idempotencyKey requestHash = (reply, store')) :
    (∃ record, store.records (applicationId, idempotencyKey) = some record ∧ record.Live now ∧
      reply = .ok (record.answer requestHash) ∧ store' = store) ∨
    (store.Free now applicationId idempotencyKey ∧ reply = .ok { outcome := .new } ∧
      store' = store.write applicationId idempotencyKey
        { requestHash, inProgress := true, result := none, expiresAt := now + store.staleReservation }) ∨
    (∃ x, reply = .error x ∧ store' = store) := by
  rcases store.free_or_live now applicationId idempotencyKey with hfree | ⟨record, hrecord, hlive⟩
  · rw [reserve_free hfree] at h
    cases hend : plusDelta now store.staleReservation with
    | error x =>
        rw [hend] at h
        obtain ⟨rfl, rfl⟩ := Prod.mk.inj h
        exact Or.inr (Or.inr ⟨x, rfl, rfl⟩)
    | ok expiresAt =>
        rw [hend] at h
        obtain ⟨rfl, rfl⟩ := Prod.mk.inj h
        rw [plusDelta_ok hend]
        exact Or.inr (Or.inl ⟨hfree, rfl, rfl⟩)
  · rw [reserve_live hrecord hlive] at h
    obtain ⟨rfl, rfl⟩ := Prod.mk.inj h
    exact Or.inl ⟨record, hrecord, hlive, rfl, rfl⟩

/-- `complete` frees the key or leaves the result there, or raises and does nothing. -/
theorem complete_cases {result : InferenceResult} {cacheResult : Bool} {retentionSeconds : Nat}
    {reply : Except PyException Unit} {store' : InMemoryIdempotencyStore}
    (h : store.complete now applicationId idempotencyKey requestHash result cacheResult retentionSeconds =
      (reply, store')) :
    (cacheResult = false ∧ reply = .ok () ∧ store' = store.pop applicationId idempotencyKey) ∨
    (cacheResult = true ∧ reply = .ok () ∧ store' = store.write applicationId idempotencyKey
      { requestHash, inProgress := false, result := some result,
        expiresAt := now + retentionSeconds * 1000000 }) ∨
    (∃ x, reply = .error x ∧ store' = store) := by
  unfold complete at h
  cases cacheResult with
  | false =>
      obtain ⟨rfl, rfl⟩ := Prod.mk.inj h
      exact Or.inl ⟨rfl, rfl, rfl⟩
  | true =>
      rw [if_neg (by decide)] at h
      cases hend : plusDelta now (retentionSeconds * 1000000) with
      | error x =>
          rw [hend] at h
          obtain ⟨rfl, rfl⟩ := Prod.mk.inj h
          exact Or.inr (Or.inr ⟨x, rfl, rfl⟩)
      | ok expiresAt =>
          rw [hend] at h
          obtain ⟨rfl, rfl⟩ := Prod.mk.inj h
          rw [plusDelta_ok hend]
          exact Or.inr (Or.inl ⟨rfl, rfl, rfl⟩)

end InMemoryIdempotencyStore

end ModelRouter
