import ModelRouter.Adapters.InMemoryIdempotencyStore
import ModelRouter.Application.World

/-!
# The two stores side by side

The same operations, one after the other and at whole seconds, are carried out by the in-memory
store and by the DynamoDB store over a table. A record and an item say the same (`Encodes`) until a
`reserve` comes at the very instant a record expires: the record is no longer live, the item has not
expired yet. `stores_agree_iff` : the stores answer alike exactly when no `reserve` does (and no
instant leaves the range of `datetime`).
-/

namespace ModelRouter
open Effects Prog DynamoDbIdempotencyStore

/-! ## Operations -/

inductive StoreOperation where
  | reserve (applicationId idempotencyKey requestHash : String)
  | complete (applicationId idempotencyKey requestHash : String) (result : InferenceResult)
    (cacheResult : Bool)
      (retentionSeconds : Nat)
  | release (applicationId idempotencyKey : String)

/-- The result an operation hands to the store. -/
def StoreOperation.result : StoreOperation → Option InferenceResult
  | complete _ _ _ result _ _ => some result
  | _ => none

/-- What an operation returns, a reservation or nothing, or raises. -/
abbrev Outcome : Type := Except PyException (Option IdempotencyReservation)

def microseconds (seconds : Int) : Int := seconds * 1000000

def InMemoryIdempotencyStore.perform (store : InMemoryIdempotencyStore) (seconds : Int) :
    StoreOperation → Outcome × InMemoryIdempotencyStore
  | .reserve applicationId idempotencyKey requestHash =>
    let answered := store.reserve (microseconds seconds) applicationId idempotencyKey requestHash
    (answered.1.map some, answered.2)
  | .complete applicationId idempotencyKey requestHash result cacheResult retentionSeconds =>
    let answered := store.complete (microseconds seconds) applicationId idempotencyKey requestHash
      result cacheResult
      retentionSeconds
    (answered.1.map fun _ => none, answered.2)
  | .release applicationId idempotencyKey =>
    let answered := store.release applicationId idempotencyKey
    (answered.1.map fun _ => none, answered.2)

/-- No port of the application is called by the store. -/
def noPorts (port : Port) : Except PyException port.Answer := .error (.other "unused")

def DynamoDbIdempotencyStore.perform (store : DynamoDbIdempotencyStore)
    (table : String × String → Option Item)
    (seconds : Int) : StoreOperation → Outcome × (String × String → Option Item)
  | .reserve applicationId idempotencyKey requestHash =>
    let answered := exec (TableState.serve noPorts)
      (store.reserve applicationId idempotencyKey requestHash)
      { table, now := microseconds seconds }
    (answered.1.map some, answered.2.table)
  | .complete applicationId idempotencyKey requestHash result cacheResult retentionSeconds =>
    let answered := exec (TableState.serve noPorts)
      (store.complete applicationId idempotencyKey requestHash result cacheResult retentionSeconds)
      { table, now := microseconds seconds }
    (answered.1.map fun _ => none, answered.2.table)
  | .release applicationId idempotencyKey =>
    let answered := exec (TableState.serve noPorts) (release applicationId idempotencyKey)
      { table, now := microseconds seconds }
    (answered.1.map fun _ => none, answered.2.table)

/-- The outcomes of a sequence of operations, each at its whole second. -/
def InMemoryIdempotencyStore.outcomes (store : InMemoryIdempotencyStore) :
    List (Int × StoreOperation) → List Outcome
  | [] => []
  | (seconds, operation) :: operations =>
    let performed := store.perform seconds operation
    performed.1 :: performed.2.outcomes operations

def DynamoDbIdempotencyStore.outcomes (store : DynamoDbIdempotencyStore)
    (table : String × String → Option Item) :
    List (Int × StoreOperation) → List Outcome
  | [] => []
  | (seconds, operation) :: operations =>
    let performed := store.perform table seconds operation
    performed.1 :: store.outcomes performed.2 operations

/-! ## Where they agree -/

def InRange (instant : Int) : Prop := datetimeMin ≤ instant ∧ instant ≤ datetimeMax

instance (instant : Int) : Decidable (InRange instant) :=
  inferInstanceAs (Decidable (datetimeMin ≤ instant ∧ instant ≤ datetimeMax))

/-- The operation does not come at the instant its key's record expires, and computes no instant out
of range. -/
def ClearOperation (store : InMemoryIdempotencyStore) (seconds : Int) : StoreOperation → Prop
  | .reserve applicationId idempotencyKey _ =>
    (∀ record ∈ store.records (applicationId, idempotencyKey),
      record.expiresAt ≠ microseconds seconds) ∧
      (store.Free (microseconds seconds) applicationId idempotencyKey →
        InRange (microseconds seconds + store.staleReservation))
  | .complete _ _ _ _ cacheResult retentionSeconds =>
    cacheResult = true → InRange (microseconds seconds + retentionSeconds * 1000000)
  | .release _ _ => True

instance (store : InMemoryIdempotencyStore) (seconds : Int) (operation : StoreOperation) :
    Decidable (ClearOperation store seconds operation) :=
  match operation with
  | .reserve _ _ _ => inferInstanceAs (Decidable (_ ∧ _))
  | .complete _ _ _ _ _ _ => inferInstanceAs (Decidable (_ → _))
  | .release _ _ => isTrue trivial

/-- Every operation of the sequence is clear where it comes. -/
def Clear (store : InMemoryIdempotencyStore) : List (Int × StoreOperation) → Prop
  | [] => True
  | (seconds, operation) :: operations =>
    ClearOperation store seconds operation ∧ Clear (store.perform seconds operation).2 operations

instance decidableClear (store : InMemoryIdempotencyStore)
    (operations : List (Int × StoreOperation)) :
    Decidable (Clear store operations) :=
  match operations with
  | [] => isTrue trivial
  | (seconds, operation) :: operations =>
    have : Decidable (Clear (store.perform seconds operation).2 operations) :=
      decidableClear _ operations
    inferInstanceAs (Decidable (_ ∧ _))

/-! ## The simulation -/

/-- An item says what a record says. -/
structure Encodes (store : DynamoDbIdempotencyStore) (record : InMemoryIdempotencyStore.Record)
    (item : Item) :
    Prop where
  requestHash : item.requestHash = record.requestHash
  expiresAt : record.expiresAt = microseconds item.expiresAt
  content : record.inProgress = true ∧ item.status = .inProgress ∨
    ∃ result json, record.inProgress = false ∧ record.result = some result ∧
      item.status = .completed ∧
      item.result = some json ∧ store.modelValidateJson json = .ok result

/-- The table says what the store in memory says. -/
def Mirrors (store : DynamoDbIdempotencyStore) (memory : InMemoryIdempotencyStore)
    (table : String × String → Option Item) : Prop :=
  memory.staleReservation = microseconds store.staleReservationSeconds ∧
    ∀ key, Option.Rel (Encodes store) (memory.records key) (table key)

variable {store : DynamoDbIdempotencyStore} {memory : InMemoryIdempotencyStore}
  {table : String × String → Option Item} {seconds : Int}
  {applicationId idempotencyKey requestHash : String}

theorem wholeSeconds_microseconds (seconds : Int) : wholeSeconds (microseconds seconds) = seconds :=
  Int.mul_tdiv_cancel seconds (by decide)

theorem plusDelta_inRange {instant delta : Int} (h : InRange (instant + delta)) :
    plusDelta instant delta = .ok (instant + delta) := if_pos h

theorem plusDelta_not_inRange {instant delta : Int} (h : ¬ InRange (instant + delta)) :
    plusDelta instant delta = .error (.other "OverflowError") := if_neg h

theorem answerItem_eq {record : InMemoryIdempotencyStore.Record} {item : Item}
    (h : Encodes store record item) (requestHash : String) :
      store.answerItem requestHash item = .ok (record.answer requestHash) := by
  unfold answerItem InMemoryIdempotencyStore.Record.answer
  rw [h.requestHash]
  by_cases hhash : record.requestHash = requestHash
  · rw [if_neg (not_not.mpr hhash), if_neg (not_not.mpr hhash)]
    rcases h.content with ⟨hprogress, hstatus⟩ |
      ⟨result, json, hdone, hresult, hstatus, hjson, hvalid⟩
    · rw [hstatus, if_pos hprogress]
    · rw [hstatus, hjson, if_neg (by simp [hdone]), hresult]
      dsimp only
      rw [hvalid]
      rfl
  · rw [if_pos hhash, if_pos hhash]

/-! ## One operation -/

theorem Mirrors.update {record : Option InMemoryIdempotencyStore.Record} {item : Option Item}
    (h : Mirrors store memory table) (key : String × String)
    (hrel : Option.Rel (Encodes store) record item) :
    Mirrors store { memory with records := Function.update memory.records key record }
      (Function.update table key item) := by
  refine ⟨h.1, fun key' => ?_⟩
  dsimp only
  by_cases hkey : key' = key
  · subst hkey
    rw [Function.update_self, Function.update_self]
    exact hrel
  · rw [Function.update_of_ne hkey, Function.update_of_ne hkey]
    exact h.2 key'

theorem microseconds_lt {a b : Int} : microseconds a < microseconds b ↔ a < b := by
  unfold microseconds
  omega

/-- The two stores carry the operation out alike, and stay alike. -/
def Alike (store : DynamoDbIdempotencyStore) (memory : InMemoryIdempotencyStore)
    (table : String × String → Option Item) (seconds : Int) (operation : StoreOperation) : Prop :=
  (memory.perform seconds operation).1 = (store.perform table seconds operation).1 ∧
    Mirrors store (memory.perform seconds operation).2 (store.perform table seconds operation).2

/-- The two stores have different outcomes. -/
def Differ (store : DynamoDbIdempotencyStore) (memory : InMemoryIdempotencyStore)
    (table : String × String → Option Item) (seconds : Int) (operation : StoreOperation) : Prop :=
  (memory.perform seconds operation).1 ≠ (store.perform table seconds operation).1

section Reserve

theorem perform_allowed
    (hallows : TableState.Allows (table (applicationId, idempotencyKey)) seconds)
    (requestHash : String) :
    store.perform table seconds (.reserve applicationId idempotencyKey requestHash) =
      (.ok (some { outcome := .new }), Function.update table (applicationId, idempotencyKey)
        (some (store.reservedItem applicationId idempotencyKey requestHash seconds))) := by
  have hseconds := wholeSeconds_microseconds seconds
  have hexec := @exec_reserve_allowed store applicationId idempotencyKey requestHash
    noPorts { table, now := microseconds seconds } (by rw [hseconds]; exact hallows)
  rw [DynamoDbIdempotencyStore.perform, hexec]
  dsimp only
  rw [hseconds]
  rfl

theorem perform_refused {item : Item} (hitem : table (applicationId, idempotencyKey) = some item)
    (hrefused : seconds ≤ item.expiresAt) {answer : IdempotencyReservation}
    (hanswer : store.answerItem requestHash item = .ok answer) :
    store.perform table seconds (.reserve applicationId idempotencyKey requestHash) = (.ok (some answer), table) := by
  have hexec := @exec_reserve_refused store applicationId idempotencyKey requestHash
    noPorts { table, now := microseconds seconds } item hitem (by rw [wholeSeconds_microseconds]; exact hrefused)
  rw [DynamoDbIdempotencyStore.perform, hexec, hanswer]
  rfl

/-- What is free in memory is free in the table, but for a record that expires at this very
instant. -/
theorem allows_of_free (h : Mirrors store memory table)
    (hfree : memory.Free (microseconds seconds) applicationId idempotencyKey)
    (hboundary : ∀ record ∈ memory.records (applicationId, idempotencyKey), record.expiresAt ≠ microseconds seconds) :
    TableState.Allows (table (applicationId, idempotencyKey)) seconds := by
  intro item hitem
  have hrel := h.2 (applicationId, idempotencyKey)
  rw [show table (applicationId, idempotencyKey) = some item from hitem] at hrel
  generalize hrecord : memory.records (applicationId, idempotencyKey) = existing at hrel
  cases hrel with
  | some hencodes =>
      have hexpired : ¬ microseconds seconds < _ := hfree _ hrecord
      have hother := hboundary _ hrecord
      rw [hencodes.expiresAt] at hexpired hother
      rw [microseconds_lt] at hexpired
      have hne : item.expiresAt ≠ seconds := fun hsame => hother (congrArg microseconds hsame)
      omega

theorem reserve_free_alike (h : Mirrors store memory table)
    (hfree : memory.Free (microseconds seconds) applicationId idempotencyKey)
    (hallows : TableState.Allows (table (applicationId, idempotencyKey)) seconds)
    (hrange : InRange (microseconds seconds + memory.staleReservation)) :
    Alike store memory table seconds (.reserve applicationId idempotencyKey requestHash) := by
  have hreserve := @InMemoryIdempotencyStore.reserve_free memory _ _ _ requestHash hfree
  rw [plusDelta_inRange hrange] at hreserve
  unfold Alike
  rw [perform_allowed hallows, InMemoryIdempotencyStore.perform, hreserve]
  refine ⟨rfl, h.update _ (.some ⟨rfl, ?_, Or.inl ⟨rfl, rfl⟩⟩)⟩
  show microseconds seconds + memory.staleReservation =
      microseconds (seconds + store.staleReservationSeconds)
  rw [h.1]
  unfold microseconds
  omega

theorem reserve_free_differ
    (hfree : memory.Free (microseconds seconds) applicationId idempotencyKey)
    (hallows : TableState.Allows (table (applicationId, idempotencyKey)) seconds)
    (hrange : ¬ InRange (microseconds seconds + memory.staleReservation)) :
    Differ store memory table seconds (.reserve applicationId idempotencyKey requestHash) := by
  have hreserve := @InMemoryIdempotencyStore.reserve_free memory _ _ _ requestHash hfree
  rw [plusDelta_not_inRange hrange] at hreserve
  unfold Differ
  rw [perform_allowed hallows, InMemoryIdempotencyStore.perform, hreserve]
  exact fun hsame => by cases hsame

variable {record : InMemoryIdempotencyStore.Record} {item : Item}

theorem reserve_live_alike (h : Mirrors store memory table)
    (hrecord : memory.records (applicationId, idempotencyKey) = some record)
    (hitem : table (applicationId, idempotencyKey) = some item)
    (hencodes : Encodes store record item) (hlive : record.Live (microseconds seconds)) :
    Alike store memory table seconds (.reserve applicationId idempotencyKey requestHash) := by
  have hrefused : seconds ≤ item.expiresAt := by
    have hbefore : microseconds seconds < record.expiresAt := hlive
    rw [hencodes.expiresAt, microseconds_lt] at hbefore
    omega
  unfold Alike
  rw [perform_refused hitem hrefused (answerItem_eq hencodes requestHash),
    InMemoryIdempotencyStore.perform,
    InMemoryIdempotencyStore.reserve_live hrecord hlive]
  exact ⟨rfl, h⟩

/-- At the instant the record expires it is free in memory and stands in the way in the table. -/
theorem reserve_boundary_differ
    (hrecord : memory.records (applicationId, idempotencyKey) = some record)
    (hitem : table (applicationId, idempotencyKey) = some item)
    (hencodes : Encodes store record item) (hboundary : record.expiresAt = microseconds seconds) :
    Differ store memory table seconds (.reserve applicationId idempotencyKey requestHash) := by
  have hrefused : seconds ≤ item.expiresAt := by
    rw [hencodes.expiresAt] at hboundary
    unfold microseconds at hboundary
    omega
  have hfree : memory.Free (microseconds seconds) applicationId idempotencyKey := by
    intro record' hrecord' hlive
    have hbefore : microseconds seconds < record'.expiresAt := hlive
    rw [hrecord] at hrecord'
    cases hrecord'
    omega
  unfold Differ
  rw [perform_refused hitem hrefused (answerItem_eq hencodes requestHash),
    InMemoryIdempotencyStore.perform,
    InMemoryIdempotencyStore.reserve_free hfree]
  intro hsame
  cases hrange : plusDelta (microseconds seconds) memory.staleReservation with
  | error x =>
      rw [hrange] at hsame
      cases hsame
  | ok expiresAt =>
      rw [hrange] at hsame
      have hanswer := InMemoryIdempotencyStore.answer_ne_new record requestHash
      rw [← Option.some.inj (Except.ok.inj hsame)] at hanswer
      exact hanswer rfl

end Reserve

theorem complete_uncached_alike (h : Mirrors store memory table) (result : InferenceResult)
    (retentionSeconds : Nat) :
    Alike store memory table seconds
      (.complete applicationId idempotencyKey requestHash result false retentionSeconds) :=
  ⟨rfl, h.update _ .none⟩

theorem release_alike (h : Mirrors store memory table) :
    Alike store memory table seconds (.release applicationId idempotencyKey) :=
  ⟨rfl, h.update _ .none⟩

theorem perform_complete (result : InferenceResult) (retentionSeconds : Nat) :
    store.perform table seconds
      (.complete applicationId idempotencyKey requestHash result true retentionSeconds) =
      (.ok none, Function.update table (applicationId, idempotencyKey)
        (some (store.completedItem applicationId idempotencyKey requestHash result retentionSeconds
          seconds))) := by
  rw [DynamoDbIdempotencyStore.perform, exec_complete, wholeSeconds_microseconds]
  rfl

theorem complete_cached_alike (h : Mirrors store memory table) {result : InferenceResult}
    {retentionSeconds : Nat}
    (hjson : store.modelValidateJson (store.modelDumpJson result) = .ok result)
    (hrange : InRange (microseconds seconds + retentionSeconds * 1000000)) :
    Alike store memory table seconds
      (.complete applicationId idempotencyKey requestHash result true retentionSeconds) := by
  unfold Alike
  rw [perform_complete, InMemoryIdempotencyStore.perform, InMemoryIdempotencyStore.complete,
    if_neg (by decide),
    plusDelta_inRange hrange]
  refine ⟨rfl, h.update _ (.some ⟨rfl, ?_, Or.inr ⟨result, _, rfl, rfl, rfl, rfl, hjson⟩⟩)⟩
  show microseconds seconds + retentionSeconds * 1000000 = microseconds (seconds + retentionSeconds)
  unfold microseconds
  omega

theorem complete_cached_differ {result : InferenceResult} {retentionSeconds : Nat}
    (hrange : ¬ InRange (microseconds seconds + retentionSeconds * 1000000)) :
    Differ store memory table seconds
      (.complete applicationId idempotencyKey requestHash result true retentionSeconds) := by
  unfold Differ
  rw [perform_complete, InMemoryIdempotencyStore.perform, InMemoryIdempotencyStore.complete,
    if_neg (by decide),
    plusDelta_not_inRange hrange]
  exact fun hsame => by cases hsame

theorem alike_of_clear (h : Mirrors store memory table) {operation : StoreOperation}
    (hjson : ∀ result ∈ operation.result,
      store.modelValidateJson (store.modelDumpJson result) = .ok result)
    (hclear : ClearOperation memory seconds operation) :
      Alike store memory table seconds operation := by
  cases operation with
  | reserve applicationId idempotencyKey requestHash =>
      obtain ⟨hboundary, hrange⟩ := hclear
      have hrel := h.2 (applicationId, idempotencyKey)
      rcases memory.free_or_live (microseconds seconds) applicationId idempotencyKey with
        hfree | ⟨record, hrecord, hlive⟩
      · exact reserve_free_alike h hfree (allows_of_free h hfree hboundary) (hrange hfree)
      · rw [hrecord] at hrel
        generalize hitem : table (applicationId, idempotencyKey) = existing at hrel
        cases hrel with
        | some hencodes => exact reserve_live_alike h hrecord hitem hencodes hlive
  | complete applicationId idempotencyKey requestHash result cacheResult retentionSeconds =>
      cases cacheResult with
      | false => exact complete_uncached_alike h result retentionSeconds
      | true => exact complete_cached_alike h (hjson result rfl) (hclear rfl)
  | release applicationId idempotencyKey => exact release_alike h

theorem differ_of_not_clear (h : Mirrors store memory table) {operation : StoreOperation}
    (hclear : ¬ ClearOperation memory seconds operation) :
      Differ store memory table seconds operation := by
  cases operation with
  | reserve applicationId idempotencyKey requestHash =>
      have hrel := h.2 (applicationId, idempotencyKey)
      by_cases hboundary : ∀ record ∈ memory.records (applicationId, idempotencyKey),
          record.expiresAt ≠ microseconds seconds
      · have hrange : ¬ (memory.Free (microseconds seconds) applicationId idempotencyKey →
            InRange (microseconds seconds + memory.staleReservation)) :=
              fun hrange => hclear ⟨hboundary, hrange⟩
        push Not at hrange
        obtain ⟨hfree, hrange⟩ := hrange
        exact reserve_free_differ hfree (allows_of_free h hfree hboundary) hrange
      · push Not at hboundary
        obtain ⟨record, hrecord, hboundary⟩ := hboundary
        have hsome : memory.records (applicationId, idempotencyKey) = some record := hrecord
        rw [hsome] at hrel
        generalize hitem : table (applicationId, idempotencyKey) = existing at hrel
        cases hrel with
        | some hencodes => exact reserve_boundary_differ hsome hitem hencodes hboundary
  | complete applicationId idempotencyKey requestHash result cacheResult retentionSeconds =>
      cases cacheResult with
      | false => exact absurd (fun hcached => by cases hcached) hclear
      | true => exact complete_cached_differ fun hrange => hclear fun _ => hrange
  | release applicationId idempotencyKey => exact absurd trivial hclear

/-! ## Sequences -/

/-- Stores that are alike have the same outcomes as long as every operation is clear, and only
then. -/
theorem outcomes_iff_clear (operations : List (Int × StoreOperation))
    (h : Mirrors store memory table) (hjson : ∀ step ∈ operations, ∀ result ∈ step.2.result,
      store.modelValidateJson (store.modelDumpJson result) = .ok result) :
    memory.outcomes operations = store.outcomes table operations ↔ Clear memory operations := by
  induction operations generalizing memory table with
  | nil => exact iff_of_true rfl trivial
  | cons step operations ih =>
      obtain ⟨seconds, operation⟩ := step
      rw [InMemoryIdempotencyStore.outcomes, DynamoDbIdempotencyStore.outcomes, Clear]
      by_cases hclear : ClearOperation memory seconds operation
      · obtain ⟨hsame, hmirrors⟩ := alike_of_clear h (hjson _ List.mem_cons_self) hclear
        have hrest := ih hmirrors fun step hstep => hjson step (List.mem_cons_of_mem _ hstep)
        rw [← hrest]
        constructor
        · intro houtcomes
          exact ⟨hclear, (List.cons.inj houtcomes).2⟩
        · rintro ⟨-, houtcomes⟩
          rw [hsame, houtcomes]
      · have hdiffer := differ_of_not_clear h hclear
        refine iff_of_false (fun houtcomes => ?_) fun h => hclear h.1
        exact hdiffer (List.cons.inj houtcomes).1

/-- **The two stores have the same outcomes, from empty, exactly when every operation is clear.** -/
theorem stores_agree_iff (store : DynamoDbIdempotencyStore)
    (operations : List (Int × StoreOperation))
    (hjson : ∀ step ∈ operations, ∀ result ∈ step.2.result,
      store.modelValidateJson (store.modelDumpJson result) = .ok result) :
    InMemoryIdempotencyStore.outcomes
      { staleReservation := microseconds store.staleReservationSeconds } operations =
      store.outcomes (fun _ => none) operations ↔
    Clear { staleReservation := microseconds store.staleReservationSeconds } operations :=
  outcomes_iff_clear operations ⟨rfl, fun _ => .none⟩ hjson

namespace Scenario

/-- A result is completed at second 1 and retained for ten seconds; a reserve comes a second before
and one after. -/
def aroundRetention : List (Int × StoreOperation) :=
  [(0, .reserve "app" "key" "hello"), (1, .complete "app" "key" "hello" unavailable true 10),
    (10, .reserve "app" "key" "hello"), (12, .reserve "app" "key" "hello")]

theorem aroundRetention_agree :
    InMemoryIdempotencyStore.outcomes
      { staleReservation := microseconds Scenario.table.staleReservationSeconds }
      aroundRetention = Scenario.table.outcomes (fun _ => none) aroundRetention := by
  refine (stores_agree_iff Scenario.table aroundRetention ?_).mpr ?_
  · intro step hstep result hresult
    simp only [aroundRetention, List.mem_cons, List.not_mem_nil, or_false] at hstep
    rcases hstep with rfl | rfl | rfl | rfl
    · cases hresult
    · cases hresult
      exact table_roundTrip unavailable
    · cases hresult
    · cases hresult
  · decide +kernel

/-- A reservation is never settled; a second reserve comes when it expires. -/
def atExpiry : List (Int × StoreOperation) :=
  [(0, .reserve "app" "key" "hello"), (300, .reserve "app" "key" "hello")]

/-- **At that instant the stores differ**: in memory the second reserve is NEW, over the table it is
IN_PROGRESS. -/
theorem atExpiry_differ :
    InMemoryIdempotencyStore.outcomes
      { staleReservation := microseconds Scenario.table.staleReservationSeconds } atExpiry ≠
      Scenario.table.outcomes (fun _ => none) atExpiry := by
  intro hsame
  have houtcomes := congrArg (List.map Except.toOption) hsame
  revert houtcomes
  decide +kernel

end Scenario

end ModelRouter
