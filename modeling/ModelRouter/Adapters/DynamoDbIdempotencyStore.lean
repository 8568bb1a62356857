import ModelRouter.Application.Ports
import ModelRouter.Lib.Calendar
import Mathlib.Logic.Function.Basic

/-!
# The DynamoDB idempotency store

The store is a client of a table: each operation is a program over `Backend`, whose calls are the
operations of the table and the clock, next to the ports of the application. `reserve` is a
conditional put, and a get when the put is refused, tried at most `maxReserveAttempts` times.

`TableState.serve` is a table that evaluates the condition as written; its operations are atomic.
`overDynamoDb` is a use case whose store is this one. An observer that the operations of a
reservation leave undisturbed sees it answer NEW, or what it makes of an item that it has looked up
(`spec_reserve_observed`).
-/

namespace ModelRouter
open Effects Prog

namespace DynamoDbIdempotencyStore

/-! ## The table -/

inductive ItemStatus where
  | inProgress | completed
deriving DecidableEq, Repr

/-- `result` is the JSON of a completed item. -/
structure Item where
  pk : String
  sk : String
  requestHash : String
  status : ItemStatus
  result : Option String := none
  expiresAt : Int
deriving DecidableEq, Repr

def Item.key (item : Item) : String × String := (item.pk, item.sk)

/-- A put with a condition is one with `attribute_not_exists(pk) OR expiresAt < :now`, given
`:now`. -/
inductive BackendCall where
  | ofPort (port : Port)
  | clockSeconds
  | putItem (item : Item) (condition : Option Int)
  | getItem (pk sk : String)
  | deleteItem (pk sk : String)
deriving DecidableEq

/-- `time.time()` is given in microseconds. -/
@[reducible] def BackendCall.Answer : BackendCall → Type
  | .ofPort port => port.Answer
  | .clockSeconds => Int
  | .getItem _ _ => Option Item
  | .putItem _ _ | .deleteItem _ _ => Unit

abbrev Backend : Sig := { Call := BackendCall, Answer := BackendCall.Answer, Exc := PyException }

abbrev request (call : BackendCall) : Prog Backend call.Answer := @Prog.perform Backend call

abbrev tryRequest (call : BackendCall) : Prog Backend (Except PyException call.Answer) :=
  @Prog.tryPerform Backend call

def conditionalCheckFailed : PyException := .clientError "ConditionalCheckFailedException"

structure TableState where
  table : String × String → Option Item := fun _ => none
  now : Int

namespace TableState

def set (s : TableState) (key : String × String) (item : Option Item) : TableState :=
  { s with table := Function.update s.table key item }

@[simp] theorem set_table_self (s : TableState) (key : String × String) (item : Option Item) :
    (s.set key item).table key = item := Function.update_self ..

theorem set_table_of_ne {key key' : String × String} (h : key' ≠ key) (s : TableState)
    (item : Option Item) :
    (s.set key item).table key' = s.table key' := Function.update_of_ne h ..

/-- The condition of a put on the item that stands at the key. -/
def Allows (existing : Option Item) (now : Int) : Prop := ∀ item ∈ existing, item.expiresAt < now

instance (existing : Option Item) (now : Int) : Decidable (Allows existing now) :=
  inferInstanceAs (Decidable (∀ item ∈ existing, item.expiresAt < now))

def putItem (s : TableState) (item : Item) (condition : Option Int) :
    Except PyException Unit × TableState :=
  if ∀ now ∈ condition, Allows (s.table item.key) now then (.ok (), s.set item.key item)
  else (.error conditionalCheckFailed, s)

/-- The table and the clock answer their calls, `ports` the others. -/
def serve (ports : (port : Port) → Except PyException port.Answer) : Handler Backend TableState
  | .ofPort port, s => (ports port, s)
  | .clockSeconds, s => (.ok s.now, s)
  | .putItem item condition, s => s.putItem item condition
  | .getItem pk sk, s => (.ok (s.table (pk, sk)), s)
  | .deleteItem pk sk, s => (.ok (), s.set (pk, sk) none)

end TableState

end DynamoDbIdempotencyStore

open DynamoDbIdempotencyStore

/-- What a table relies on of pydantic's texts: a text is read as what was written, if it is read at
all, and the text of what was created in a year of four digits is read. -/
structure ReadsBack {α : Type} (modelDumpJson : α → String)
    (modelValidateJson : String → Except PyException α) (createdAt : α → Nat) : Prop where
  same : ∀ a a', modelValidateJson (modelDumpJson a) = .ok a' → a' = a
  reads : ∀ a, Calendar.FourDigits (createdAt a) → modelValidateJson (modelDumpJson a) = .ok a

theorem ReadsBack.injective {α : Type} {modelDumpJson : α → String}
    {modelValidateJson : String → Except PyException α} {createdAt : α → Nat}
    (h : ReadsBack modelDumpJson modelValidateJson createdAt) {a a' : α}
    (hyear : Calendar.FourDigits (createdAt a')) (htext : modelDumpJson a = modelDumpJson a') :
      a = a' := by
  have hread := h.reads a' hyear
  rw [← htext] at hread
  exact (h.same a a' hread).symm

/-- `modelDumpJson` and `modelValidateJson` are pydantic's, of `InferenceResult`. -/
structure DynamoDbIdempotencyStore where
  staleReservationSeconds : Int := 300
  modelDumpJson : InferenceResult → String
  modelValidateJson : String → Except PyException InferenceResult

namespace DynamoDbIdempotencyStore

abbrev ReadsBack (store : DynamoDbIdempotencyStore) : Prop :=
  ModelRouter.ReadsBack store.modelDumpJson store.modelValidateJson fun result =>
    result.decision.createdAt

/-- `_MAX_RESERVE_ATTEMPTS`. -/
def maxReserveAttempts : Nat := 2

/-- `int()` of a reading of the clock. -/
def wholeSeconds (microseconds : Int) : Int := microseconds.tdiv 1000000

variable (store : DynamoDbIdempotencyStore) (applicationId idempotencyKey requestHash : String)

def reservedItem (now : Int) : Item where
  pk := applicationId
  sk := idempotencyKey
  requestHash := requestHash
  status := .inProgress
  expiresAt := now + store.staleReservationSeconds

/-- What a reservation that was refused answers from the item it finds. -/
def answerItem (existing : Item) : Except PyException IdempotencyReservation :=
  if existing.requestHash ≠ requestHash then .ok { outcome := .conflict }
  else match existing.status with
    | .inProgress => .ok { outcome := .inProgress }
    | .completed => match existing.result with
      | none => .error (.other "KeyError")
      | some json => do
        let cachedResult ← store.modelValidateJson json
        .ok { outcome := .completed, cachedResult := some cachedResult }

/-- The part of `_try_reserve` after the put was refused. -/
def lookUp : Prog Backend (Option IdempotencyReservation) := do
  match ← request (.getItem applicationId idempotencyKey) with
  | none => ret none
  | some existing =>
    let reservation ← ofExcept (store.answerItem requestHash existing)
    ret (some reservation)

def tryReserve : Prog Backend (Option IdempotencyReservation) := do
  let clock ← request .clockSeconds
  let now := wholeSeconds clock
  match ← tryRequest (.putItem (store.reservedItem applicationId idempotencyKey requestHash now)
    (some now)) with
  | .ok _ => ret (some { outcome := .new })
  | .error x =>
      if x = conditionalCheckFailed then store.lookUp applicationId idempotencyKey requestHash
        else raise x

/-- The loop of `reserve`, with the attempts that are left. -/
def reserveAttempts : Nat → Prog Backend IdempotencyReservation
  | 0 => ret { outcome := .new }
  | attempts + 1 => do
    match ← store.tryReserve applicationId idempotencyKey requestHash with
    | some reservation => ret reservation
    | none => reserveAttempts attempts

def reserve : Prog Backend IdempotencyReservation :=
  store.reserveAttempts applicationId idempotencyKey requestHash maxReserveAttempts

def release : Prog Backend Unit := request (.deleteItem applicationId idempotencyKey)

def completedItem (result : InferenceResult) (retentionSeconds : Nat) (now : Int) : Item where
  pk := applicationId
  sk := idempotencyKey
  requestHash := requestHash
  status := .completed
  result := some (store.modelDumpJson result)
  expiresAt := now + retentionSeconds

def complete (result : InferenceResult) (cacheResult : Bool) (retentionSeconds : Nat) :
    Prog Backend Unit :=
  if !cacheResult then release applicationId idempotencyKey
  else do
    let clock ← request .clockSeconds
    request (.putItem (store.completedItem applicationId idempotencyKey requestHash result
      retentionSeconds
      (wholeSeconds clock)) none)

/-! ## Use cases over the store -/

/-- The store carries out its ports, the others are left. -/
def carryOut : (port : Port) → Prog Backend (Except PyException port.Answer)
  | .reserve applicationId idempotencyKey requestHash =>
    (store.reserve applicationId idempotencyKey requestHash).attempt
  | .complete applicationId idempotencyKey requestHash result cacheResult retentionSeconds =>
    (store.complete applicationId idempotencyKey requestHash result cacheResult
      retentionSeconds).attempt
  | .release applicationId idempotencyKey => (release applicationId idempotencyKey).attempt
  | port => tryRequest (.ofPort port)

def overDynamoDb {α : Type} (useCase : Prog Ports α) : Prog Backend α :=
  @Prog.interpret Ports α Backend id store.carryOut useCase

/-! ## An observer of a reservation -/

section Observed

/-- The operations of a reservation. -/
def ReservingCall : BackendCall → Prop
  | .clockSeconds => True
  | .putItem item condition => ∃ now,
    item = store.reservedItem applicationId idempotencyKey requestHash now ∧ condition = some now
  | .getItem pk sk => pk = applicationId ∧ sk = idempotencyKey
  | _ => False

/-- An observer that does not mind the operations of a reservation, and keeps `I` during them. -/
def Undisturbed {σ : Type} (M : Monitor Backend σ) (I : σ → Prop) : Prop :=
  ∀ s operation, I s → ReservingCall store applicationId idempotencyKey requestHash operation →
    M.owes s operation ∧ ∀ reply, I (M.next s operation reply)

variable {store applicationId idempotencyKey requestHash}
variable {σ : Type} {M : Monitor Backend σ} {I : σ → Prop} {A : IdempotencyReservation → σ → Prop}
  {s : σ}

theorem spec_lookUp_observed (hcall : Undisturbed store applicationId idempotencyKey requestHash M I)
    (hfound : ∀ s item reservation, I s →
      M.relies s (.getItem applicationId idempotencyKey) (.ok (some item)) →
      store.answerItem requestHash item = .ok reservation →
      A reservation (M.next s (.getItem applicationId idempotencyKey) (.ok (some item))))
    (hs : I s) :
    Spec M (store.lookUp applicationId idempotencyKey requestHash)
      (fun out s' => I s' ∧ ∀ reservation, out = .ok (some reservation) → A reservation s') s := by
  obtain ⟨howes, hkeeps⟩ := hcall s (.getItem applicationId idempotencyKey) hs ⟨rfl, rfl⟩
  refine Spec.performBind howes (fun existing hrelies => ?_) fun x _ =>
    ⟨hkeeps _, fun _ h => by cases h⟩
  cases existing with
  | none => exact ⟨hkeeps _, fun _ h => by cases h⟩
  | some item =>
      refine Spec.ofExceptBind (fun reservation hanswer => ⟨hkeeps _, ?_⟩) fun _ _ =>
        ⟨hkeeps _, fun _ h => by cases h⟩
      rintro reservation' ⟨⟩
      exact hfound s item reservation hs hrelies hanswer

variable (hcall : Undisturbed store applicationId idempotencyKey requestHash M I)
  (hnew : ∀ s, I s → A { outcome := .new } s)
  (hfound : ∀ s item reservation, I s →
    M.relies s (.getItem applicationId idempotencyKey) (.ok (some item)) →
    store.answerItem requestHash item = .ok reservation →
    A reservation (M.next s (.getItem applicationId idempotencyKey) (.ok (some item))))
include hcall hnew hfound

theorem spec_tryReserve_observed (hs : I s) :
    Spec M (store.tryReserve applicationId idempotencyKey requestHash)
      (fun out s' => I s' ∧ ∀ reservation, out = .ok (some reservation) → A reservation s') s := by
  obtain ⟨hclock, hkeeps⟩ := hcall s .clockSeconds hs trivial
  refine Spec.performBind hclock (fun clock _ => ?_) fun x _ => ⟨hkeeps _, fun _ h => by cases h⟩
  obtain ⟨hput, hkeeps'⟩ := hcall _
    (.putItem (store.reservedItem applicationId idempotencyKey requestHash (wholeSeconds clock))
      (some (wholeSeconds clock))) (hkeeps (.ok clock)) ⟨_, rfl, rfl⟩
  refine Spec.tryPerformBind hput fun reply _ => ?_
  cases reply with
  | ok _ =>
      refine ⟨hkeeps' _, ?_⟩
      rintro reservation ⟨⟩
      exact hnew _ (hkeeps' _)
  | error x =>
      dsimp only
      split
      · exact spec_lookUp_observed hcall hfound (hkeeps' _)
      · exact ⟨hkeeps' _, fun _ h => by cases h⟩

/-- **A reservation answers NEW, or what it makes of an item that it has looked up.** -/
theorem spec_reserve_observed (hs : I s) :
    Spec M (store.reserve applicationId idempotencyKey requestHash)
      (fun out s' => I s' ∧ ∀ reservation, out = .ok reservation → A reservation s') s := by
  have hattempts : ∀ attempts s, I s →
      Spec M (store.reserveAttempts applicationId idempotencyKey requestHash attempts)
        (fun out s' => I s' ∧ ∀ reservation, out = .ok reservation → A reservation s') s := by
    intro attempts
    induction attempts with
    | zero =>
        refine fun s hs => ⟨hs, ?_⟩
        rintro reservation ⟨⟩
        exact hnew s hs
    | succ attempts ih =>
        intro s hs
        refine Spec.bind (spec_tryReserve_observed hcall hnew hfound hs) (fun answer s' h => ?_)
          fun x s' h => ⟨h.1, fun _ h => by cases h⟩
        cases answer with
        | none => exact ih s' h.1
        | some reservation =>
            refine ⟨h.1, ?_⟩
            rintro reservation' ⟨⟩
            exact h.2 reservation rfl
  exact hattempts maxReserveAttempts s hs

end Observed

/-! ## The store alone with its table -/

section Alone

variable {store applicationId idempotencyKey requestHash}
  {ports : (port : Port) → Except PyException port.Answer} {s : TableState}

theorem serve_putItem_allowed {item : Item} {now : Int}
    (hallows : TableState.Allows (s.table item.key) now) :
    TableState.serve ports (.putItem item (some now)) s = (.ok (), s.set item.key (some item)) := by
  show s.putItem item (some now) = _
  rw [TableState.putItem, if_pos]
  rintro _ ⟨⟩
  exact hallows

theorem serve_putItem_refused {item : Item} {now : Int}
    (hallows : ¬ TableState.Allows (s.table item.key) now) :
    TableState.serve ports (.putItem item (some now)) s = (.error conditionalCheckFailed, s) := by
  show s.putItem item (some now) = _
  rw [TableState.putItem, if_neg]
  exact fun h => hallows (h now rfl)

/-- The first put is carried out. -/
theorem exec_reserve_allowed
    (hallows : TableState.Allows (s.table (applicationId, idempotencyKey)) (wholeSeconds s.now)) :
    exec (TableState.serve ports) (store.reserve applicationId idempotencyKey requestHash) s =
      (.ok { outcome := .new }, s.set (applicationId, idempotencyKey)
        (some (store.reservedItem applicationId idempotencyKey requestHash
          (wholeSeconds s.now)))) := by
  have hclock : TableState.serve ports .clockSeconds s = (.ok s.now, s) := rfl
  have hput := @serve_putItem_allowed ports s
      (store.reservedItem applicationId idempotencyKey requestHash
    (wholeSeconds s.now)) _ hallows
  have htried : exec (TableState.serve ports)
      (store.tryReserve applicationId idempotencyKey requestHash) s =
      (.ok (some { outcome := .new }), s.set (applicationId, idempotencyKey)
        (some (store.reservedItem applicationId idempotencyKey requestHash
          (wholeSeconds s.now)))) := by
    unfold tryReserve
    rw [exec_perform_bind hclock, exec_tryPerform_bind hput]
    rfl
  show exec _ (store.tryReserve applicationId idempotencyKey requestHash >>= _) s = _
  rw [exec_bind_ok htried]
  rfl

/-- The first put is refused, and the look-up finds the item that refused it. -/
theorem exec_reserve_refused {item : Item}
    (hitem : s.table (applicationId, idempotencyKey) = some item)
    (hrefused : wholeSeconds s.now ≤ item.expiresAt) :
    exec (TableState.serve ports) (store.reserve applicationId idempotencyKey requestHash) s =
      (store.answerItem requestHash item, s) := by
  have hclock : TableState.serve ports .clockSeconds s = (.ok s.now, s) := rfl
  have hallows : ¬ TableState.Allows (s.table (applicationId, idempotencyKey))
      (wholeSeconds s.now) := by
    intro hallows
    have hexpired := hallows item hitem
    omega
  have hput := @serve_putItem_refused ports s
      (store.reservedItem applicationId idempotencyKey requestHash
    (wholeSeconds s.now)) _ hallows
  have hget : TableState.serve ports (.getItem applicationId idempotencyKey) s =
      (.ok (some item), s) := by
    rw [← hitem]
    rfl
  have htried : exec (TableState.serve ports)
      (store.tryReserve applicationId idempotencyKey requestHash) s =
      ((store.answerItem requestHash item).map some, s) := by
    unfold tryReserve
    rw [exec_perform_bind hclock, exec_tryPerform_bind hput]
    dsimp only
    rw [if_pos rfl, lookUp, exec_perform_bind hget]
    dsimp only
    cases store.answerItem requestHash item <;> rfl
  show exec _ (store.tryReserve applicationId idempotencyKey requestHash >>= _) s = _
  cases hanswer : store.answerItem requestHash item with
  | ok answer =>
      rw [hanswer] at htried
      rw [exec_bind_ok htried]
      rfl
  | error x =>
      rw [hanswer] at htried
      rw [exec_bind_error htried]

theorem exec_complete (result : InferenceResult) (retentionSeconds : Nat) :
    exec (TableState.serve ports)
      (store.complete applicationId idempotencyKey requestHash result true retentionSeconds)
      s = (.ok (), s.set (applicationId, idempotencyKey)
        (some (store.completedItem applicationId idempotencyKey
        requestHash result retentionSeconds (wholeSeconds s.now)))) := by
  have hclock : TableState.serve ports .clockSeconds s = (.ok s.now, s) := rfl
  have hput : TableState.serve ports
      (.putItem (store.completedItem applicationId idempotencyKey requestHash result
      retentionSeconds (wholeSeconds s.now)) none) s =
        (.ok (), s.set (applicationId, idempotencyKey) (some
        (store.completedItem applicationId idempotencyKey requestHash result retentionSeconds
          (wholeSeconds s.now)))) := by
    show s.putItem _ none = _
    rw [TableState.putItem, if_pos (by simp)]
    rfl
  unfold complete
  rw [if_neg (by decide), exec_perform_bind hclock, exec_perform]
  exact hput

end Alone

end DynamoDbIdempotencyStore

end ModelRouter
