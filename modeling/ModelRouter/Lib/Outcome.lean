import Mathlib.Data.List.Forall2

/-!
# Computations that raise

* `Raises` : a property of every exception that a computation raises;
* `Parallel` : two computations raise the same exception, or return related values.

Both hold of a computation in steps if they hold of its steps (`Raises.bind`, `Parallel.bind`).
-/

namespace Outcome

variable {ε α β γ δ : Type}

/-! ## Exceptions with another name -/

theorem mapError_bind {ε' : Type} (g : ε → ε') (m : Except ε α) (f : α → Except ε β) :
    (m >>= f).mapError g = m.mapError g >>= fun a => (f a).mapError g := by
  cases m <;> rfl

theorem mapError_mapM {ε' : Type} (g : ε → ε') (f : α → Except ε β) (l : List α) :
    (l.mapM f).mapError g = l.mapM fun a => (f a).mapError g := by
  induction l with
  | nil => rfl
  | cons a l ih =>
      rw [List.mapM_cons, List.mapM_cons, mapError_bind, ← ih]
      congr 1
      funext b
      rw [mapError_bind]
      rfl

/-! ## What is returned -/

theorem bind_ok {m : Except ε α} {f : α → Except ε β} {b : β} (h : m >>= f = .ok b) :
    ∃ a, m = .ok a ∧ f a = .ok b := by
  cases m with
  | error x => cases h
  | ok a => exact ⟨a, rfl, h⟩

theorem bind_ok_iff {m : Except ε α} {f : α → Except ε β} {b : β} :
    m >>= f = .ok b ↔ ∃ a, m = .ok a ∧ f a = .ok b := by
  constructor
  · exact bind_ok
  · rintro ⟨a, rfl, h⟩
    exact h

/-! ## What is raised -/

/-- The computation raises only such exceptions. -/
def Raises (P : ε → Prop) (m : Except ε α) : Prop := ∀ x, m = .error x → P x

section
variable {P : ε → Prop}

theorem Raises.ok (a : α) : Raises P (.ok a : Except ε α) := by
  intro x hx
  cases hx

theorem Raises.error {x : ε} (h : P x) : Raises P (.error x : Except ε α) := by
  intro y hy
  cases hy
  exact h

theorem Raises.bind {m : Except ε α} {f : α → Except ε β} (hm : Raises P m)
    (hf : ∀ a, Raises P (f a)) :
    Raises P (m >>= f) := by
  cases m with
  | error x => exact Raises.error (hm x rfl)
  | ok a => exact hf a

end

/-! ## Two computations -/

/-- The computations raise the same exception, or return related values. -/
inductive Parallel (R : α → β → Prop) : Except ε α → Except ε β → Prop
  | ok {a : α} {b : β} (h : R a b) : Parallel R (.ok a) (.ok b)
  | error (x : ε) : Parallel R (.error x) (.error x)

namespace Parallel

variable {R : α → β → Prop} {S : γ → δ → Prop}

theorem refl (m : Except ε α) : Parallel Eq m m := by
  cases m with
  | error x => exact Parallel.error x
  | ok a => exact Parallel.ok rfl

theorem mono {R' : α → β → Prop} {m : Except ε α} {n : Except ε β} (h : Parallel R m n)
    (hR : ∀ a b, R a b → R' a b) :
    Parallel R' m n := by
  cases h with
  | error x => exact Parallel.error x
  | ok hab => exact Parallel.ok (hR _ _ hab)

theorem bind {m : Except ε α} {n : Except ε β} {f : α → Except ε γ} {g : β → Except ε δ}
    (h : Parallel R m n)
    (hfg : ∀ a b, R a b → Parallel S (f a) (g b)) : Parallel S (m >>= f) (n >>= g) := by
  cases h with
  | error x => exact Parallel.error x
  | ok hab => exact hfg _ _ hab

/-- The same computation, then two that are parallel on its value. -/
theorem bind_same {m n : Except ε α} {f : α → Except ε γ} {g : α → Except ε δ} (h : m = n)
    (hfg : ∀ a, Parallel S (f a) (g a)) : Parallel S (m >>= f) (n >>= g) := by
  subst h
  refine (refl m).bind fun a b hab => ?_
  subst hab
  exact hfg a

theorem outcome {m : Except ε α} {n : Except ε β} (h : Parallel R m n) :
    (∃ x, m = .error x ∧ n = .error x) ∨ ∃ a b, m = .ok a ∧ n = .ok b ∧ R a b := by
  cases h with
  | error x => exact Or.inl ⟨x, rfl, rfl⟩
  | ok hab => exact Or.inr ⟨_, _, rfl, rfl, hab⟩

theorem error_eq {m : Except ε α} {n : Except ε β} {x y : ε} (h : Parallel R m n)
    (hm : m = .error x) (hn : n = .error y) :
    x = y := by
  cases h with
  | error z => exact (Except.error.inj hm).symm.trans (Except.error.inj hn)
  | ok hab => cases hm

end Parallel

end Outcome
