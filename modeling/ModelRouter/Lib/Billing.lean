import Mathlib.Algebra.BigOperators.Group.List.Basic
import ModelRouter.Lib.Threads

/-!
# Bills of charges

Threads make calls that are charged, and bill what they were charged, at most once each.

* `Billing` : the charges and bills of calls, and `Billing.monitor` : what a thread owes;
* `billed_eq_charged` : in every interleaving, what has been billed is what was charged to the
  threads that have billed.
-/

namespace Effects

/-- What calls with their replies charge, and bill. -/
structure Billing (S : Sig) (μ : Type) where
  charge : Event S → μ
  bill : Event S → Option μ

namespace Billing

variable {S : Sig} {σ ι μ : Type} [AddCommMonoid μ]

/-- What a thread has been charged, and whether it has billed it. -/
structure Account (μ : Type) where
  charged : μ
  billed : Bool

def Account.opened : Account μ := ⟨0, false⟩

variable (billing : Billing S μ)

def Account.after (account : Account μ) (event : Event S) : Account μ where
  charged := account.charged + billing.charge event
  billed := account.billed || (billing.bill event).isSome

/-- A thread bills what it was charged; after that, it is charged nothing. -/
def monitor : Monitor S (Account μ) where
  owes account e := ∀ reply, (∀ amount, billing.bill ⟨e, reply⟩ = some amount →
    account.billed = false ∧ amount = account.charged ∧ billing.charge ⟨e, reply⟩ = 0) ∧
    (account.billed = true → billing.charge ⟨e, reply⟩ = 0)
  relies _ _ _ := True
  next account e reply := account.after billing ⟨e, reply⟩

/-! ## Totals -/

/-- What was billed. -/
def billed : List (Entry S σ ι) → μ
  | [] => 0
  | entry :: log => (billing.bill entry.event).getD 0 + billed log

/-- What was charged to the threads of `who`. -/
def charged (who : ι → Bool) : List (Entry S σ ι) → μ
  | [] => 0
  | entry :: log => (if who entry.thread then billing.charge entry.event else 0) + charged who log

variable {billing} [DecidableEq ι] {log : List (Entry S σ ι)}

/-- The account of a thread holds its charges. -/
theorem account_charged (i : ι) (log : List (Entry S σ ι)) :
    (billing.monitor.phase Account.opened i log).charged = billing.charged (· = i) log := by
  induction log with
  | nil => rfl
  | cons entry log ih =>
      rw [charged]
      by_cases hi : entry.thread = i
      · subst hi
        rw [Monitor.phase_cons_self, decide_eq_true rfl, if_pos rfl]
        show (billing.monitor.phase Account.opened entry.thread log).charged + billing.charge
            entry.event = _
        rw [ih, add_comm]
      · rw [Monitor.phase_cons_of_ne hi, decide_eq_false hi, if_neg (by simp), zero_add]
        exact ih

omit [DecidableEq ι] in
/-- The charges are those of one set of threads and of another, apart from it. -/
theorem charged_union {who who' : ι → Bool} (hapart : ∀ i, ¬ (who i = true ∧ who' i = true))
    (log : List (Entry S σ ι)) :
    billing.charged (fun i => who i || who' i) log =
      billing.charged who log + billing.charged who' log := by
  induction log with
  | nil => exact (add_zero 0).symm
  | cons entry log ih =>
      rw [charged, charged, charged, ih]
      have h := hapart entry.thread
      cases hwho : who entry.thread with
      | true =>
          have hwho' : who' entry.thread = false := by
            cases hwho' : who' entry.thread with
            | true => exact absurd ⟨hwho, hwho'⟩ h
            | false => rfl
          simp only [hwho', Bool.true_or, if_true, Bool.false_eq_true, if_false, zero_add,
            add_assoc]
      | false => 
          simp only [Bool.false_or, Bool.false_eq_true, if_false, zero_add]
          rw [add_left_comm]

omit [DecidableEq ι] in
theorem charged_congr {who who' : ι → Bool} (h : ∀ i, who i = who' i) (log : List (Entry S σ ι)) :
    billing.charged who log = billing.charged who' log := by
  rw [show who = who' from funext h]

/-- The threads that have billed. -/
def hasBilled (billing : Billing S μ) (log : List (Entry S σ ι)) (i : ι) : Bool :=
  (billing.monitor.phase Account.opened i log).billed

theorem hasBilled_cons (entry : Entry S σ ι) (log : List (Entry S σ ι)) (i : ι) :
    billing.hasBilled (entry :: log) i =
    (billing.hasBilled log i ||
      (decide (i = entry.thread) && (billing.bill entry.event).isSome)) := by
  unfold hasBilled
  by_cases hi : entry.thread = i
  · subst hi
    rw [Monitor.phase_cons_self]
    simp [monitor, Account.after]
  · rw [Monitor.phase_cons_of_ne hi, decide_eq_false (Ne.symm hi)]
    simp

variable {m : Machine S σ} {G : σ → List (Entry S σ ι) → Prop} {s₀ s : σ}

/-- **What has been billed is what was charged to the threads that have billed.** -/
theorem billed_eq_charged (h : m.Lawful billing.monitor Account.opened G s₀ s log) :
    billing.billed log = billing.charged (billing.hasBilled log) log := by
  induction h with
  | init => rfl
  | tick _ _ _ ih => exact ih
  | @call s s' log i e reply _ howes _ _ ih =>
      obtain ⟨hbill, hcharge⟩ := howes reply
      rw [billed, charged, ih]
      cases hbilled : billing.bill ⟨e, reply⟩ with
      | none =>
          have hsame : ∀ j, billing.hasBilled (⟨i, s, ⟨e, reply⟩⟩ :: log) j =
              billing.hasBilled log j := by
            intro j
            rw [hasBilled_cons, hbilled]
            simp
          rw [charged_congr hsame, hsame]
          congr 1
          split
          · rename_i hi
            exact (hcharge hi).symm
          · rfl
      | some amount =>
          obtain ⟨hunbilled, rfl, hfree⟩ := hbill amount hbilled
          have hnow : ∀ j, billing.hasBilled (⟨i, s, ⟨e, reply⟩⟩ :: log) j =
              (decide (j = i) || billing.hasBilled log j) := by
            intro j
            rw [hasBilled_cons, hbilled, Bool.or_comm]
            simp
          rw [charged_congr hnow, charged_union, hfree, ite_self, zero_add, account_charged]
          · rfl
          · rintro j ⟨hj, hbilledj⟩
            obtain rfl := of_decide_eq_true hj
            rw [hasBilled, hunbilled] at hbilledj
            cases hbilledj

end Billing

end Effects
