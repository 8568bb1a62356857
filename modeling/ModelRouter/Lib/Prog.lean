import Mathlib.Logic.Function.Basic

/-!
# Programs with effects

A program calls its environment, which answers or raises. `Prog S α` is the tree of a program over
the signature `S`: it has returned, it has raised, or it waits for the reply to one call.

* `Prog.bind`, `Prog.perform`, `Prog.attempt` : sequencing, one call, `try` as a value;
* `Steps p tr q` : the environment's replies `tr` take `p` to `q`; `Run p tr out` : they finish it;
* `Prog.interpret` : the calls of a program carried out by programs over another signature
  (`run_interpret`, `trace_interpret`);
* `exec`, `trace` : a program run against a handler, a state machine that answers every call
  (`run_exec`: what the handler does is a run);
* `Only P p` : every call of `p` satisfies `P`;
* `Monitor`, `Spec` : what a program owes at each call while its environment keeps its side
  (`Spec.bind`, `Spec.steps`, `Spec.run`); `Monitor.both` puts two side by side (`Spec.both`),
  `Monitor.stateless` remembers nothing, `Monitor.history` every event.
-/

namespace Effects

/-- The calls of a program, the answer of each and the exceptions. -/
structure Sig where
  Call : Type
  Answer : Call → Type
  Exc : Type

/-- What the environment gives back: an answer, or an exception. -/
abbrev Sig.Reply (S : Sig) (e : S.Call) : Type := Except S.Exc (S.Answer e)

/-- A call with its reply. -/
structure Event (S : Sig) where
  call : S.Call
  reply : S.Reply call

inductive Prog (S : Sig) (α : Type) where
  | ret (a : α)
  | raise (x : S.Exc)
  | call (e : S.Call) (k : S.Reply e → Prog S α)

variable {S : Sig} {α β γ : Type}

namespace Prog

def bind : Prog S α → (α → Prog S β) → Prog S β
  | ret a, f => f a
  | raise x, _ => raise x
  | call e k, f => call e (fun r => (k r).bind f)

instance : Monad (Prog S) where
  pure := ret
  bind := bind

@[simp] theorem pure_eq (a : α) : (pure a : Prog S α) = ret a := rfl

@[simp] theorem bind_ret (a : α) (f : α → Prog S β) : (ret a : Prog S α) >>= f = f a := rfl

@[simp] theorem bind_raise (x : S.Exc) (f : α → Prog S β) : (raise x : Prog S α) >>= f = raise x :=
  rfl

@[simp] theorem bind_call (e : S.Call) (k : S.Reply e → Prog S α) (f : α → Prog S β) :
    call e k >>= f = call e (fun r => k r >>= f) := rfl

/-- A finished program. -/
def ofExcept : Except S.Exc α → Prog S α
  | .ok a => ret a
  | .error x => raise x

@[simp] theorem ofExcept_ok (a : α) : (ofExcept (.ok a) : Prog S α) = ret a := rfl

@[simp] theorem ofExcept_error (x : S.Exc) : (ofExcept (.error x) : Prog S α) = raise x := rfl

/-- One call; its exception is raised here. -/
def perform (e : S.Call) : Prog S (S.Answer e) := call e ofExcept

/-- One call inside a `try`: the exception is a value. -/
def tryPerform (e : S.Call) : Prog S (S.Reply e) := call e ret

/-- `try`: run the program, with its exception as a value. -/
def attempt : Prog S α → Prog S (Except S.Exc α)
  | ret a => ret (.ok a)
  | raise x => ret (.error x)
  | call e k => call e (fun r => (k r).attempt)

/-- The program with every call carried out by a program over another signature, which gives the
reply. -/
def interpret {T : Sig} (raised : S.Exc → T.Exc) (impl : (e : S.Call) → Prog T (S.Reply e)) :
    Prog S α → Prog T α
  | ret a => ret a
  | raise x => raise (raised x)
  | call e k => impl e >>= fun r => (k r).interpret raised impl

end Prog

open Prog

/-! ## Runs -/

/-- The replies `tr` take the program `p` to `q`. -/
inductive Steps : Prog S α → List (Event S) → Prog S α → Prop
  | refl (p : Prog S α) : Steps p [] p
  | call {e : S.Call} {k : S.Reply e → Prog S α} {r : S.Reply e} {tr : List (Event S)}
      {q : Prog S α} :
      Steps (k r) tr q → Steps (.call e k) (⟨e, r⟩ :: tr) q

/-- The replies `tr` finish the program with `out`. -/
def Run (p : Prog S α) (tr : List (Event S)) (out : Except S.Exc α) : Prop :=
  Steps p tr (ofExcept out)

/-- The program makes no more calls. -/
def Prog.ended : Prog S α → Bool
  | ret _ | raise _ => true
  | call _ _ => false

theorem Prog.exists_ofExcept {p : Prog S α} (h : p.ended = true) : ∃ out, p = ofExcept out := by
  cases p with
  | ret a => exact ⟨.ok a, rfl⟩
  | raise x => exact ⟨.error x, rfl⟩
  | call e k => cases h

/-- What the program has returned. -/
def Prog.returned : Prog S α → Option α
  | ret a => some a
  | raise _ | call _ _ => none

theorem Prog.eq_ret_of_returned {p : Prog S α} {a : α} (h : p.returned = some a) : p = ret a := by
  cases p with
  | ret b => exact congrArg ret (Option.some.inj h)
  | raise x => cases h
  | call e k => cases h

theorem Steps.append {p q p' : Prog S α} {tr tr' : List (Event S)} (h : Steps p tr q)
    (h' : Steps q tr' p') :
    Steps p (tr ++ tr') p' := by
  induction h with
  | refl => exact h'
  | call _ ih => exact Steps.call (ih h')

/-- `tr` is what some environment has replied so far. -/
def Trace (p : Prog S α) (tr : List (Event S)) : Prop := ∃ q, Steps p tr q

theorem Run.trace {p : Prog S α} {tr : List (Event S)} {out : Except S.Exc α} (h : Run p tr out) :
    Trace p tr := ⟨_, h⟩

@[simp] theorem run_ret_iff (a : α) (tr : List (Event S)) (out : Except S.Exc α) :
    Run (ret a) tr out ↔ tr = [] ∧ out = .ok a := by
  constructor
  · intro h
    cases out <;> cases h
    exact ⟨rfl, rfl⟩
  · rintro ⟨rfl, rfl⟩
    exact Steps.refl _

@[simp] theorem run_raise_iff (x : S.Exc) (tr : List (Event S)) (out : Except S.Exc α) :
    Run (raise x : Prog S α) tr out ↔ tr = [] ∧ out = .error x := by
  constructor
  · intro h
    cases out <;> cases h
    exact ⟨rfl, rfl⟩
  · rintro ⟨rfl, rfl⟩
    exact Steps.refl _

@[simp] theorem run_call_iff (e : S.Call) (k : S.Reply e → Prog S α) (tr : List (Event S))
    (out : Except S.Exc α) :
    Run (call e k) tr out ↔ ∃ r tr', tr = ⟨e, r⟩ :: tr' ∧ Run (k r) tr' out := by
  constructor
  · intro h
    unfold Run at h
    generalize hq : ofExcept out = q at h
    cases h with
    | refl => cases out <;> cases hq
    | call h =>
        subst hq
        exact ⟨_, _, rfl, h⟩
  · rintro ⟨r, tr', rfl, h⟩
    exact Steps.call h

@[simp] theorem run_ofExcept_iff (o : Except S.Exc α) (tr : List (Event S)) (out : Except S.Exc α) :
    Run (ofExcept o) tr out ↔ tr = [] ∧ out = o := by
  cases o <;> simp

/-- A computation that fails ends the program. -/
theorem run_ofExcept_bind_iff (o : Except S.Exc α) (f : α → Prog S β) (tr : List (Event S))
    (out : Except S.Exc β) :
    Run (ofExcept o >>= f) tr out ↔
      (∃ a, o = .ok a ∧ Run (f a) tr out) ∨ ∃ x, o = .error x ∧ tr = [] ∧ out = .error x := by
  cases o with
  | ok a =>
      rw [ofExcept_ok]
      constructor
      · intro h
        exact Or.inl ⟨a, rfl, h⟩
      · rintro (⟨b, hb, h⟩ | ⟨x, hx, -⟩)
        · cases hb
          exact h
        · cases hx
  | error x =>
      constructor
      · intro h
        exact Or.inr ⟨x, rfl, (run_raise_iff _ _ _).mp h⟩
      · rintro (⟨b, hb, -⟩ | ⟨y, hy, h⟩)
        · cases hb
        · cases hy
          exact (run_raise_iff _ _ _).mpr h

theorem run_ofExcept_bind_ok_iff (o : Except S.Exc α) (f : α → Prog S β)
    (tr : List (Event S)) (b : β) :
    Run (ofExcept o >>= f) tr (.ok b) ↔ ∃ a, o = .ok a ∧ Run (f a) tr (.ok b) := by
  simp [run_ofExcept_bind_iff]

/-- A run of a sequence is a run of its first part, which raises or is followed by the rest. -/
theorem run_bind_iff (p : Prog S α) (f : α → Prog S β) (tr : List (Event S))
    (out : Except S.Exc β) :
    Run (p >>= f) tr out ↔
      (∃ a tr₁ tr₂, tr = tr₁ ++ tr₂ ∧ Run p tr₁ (.ok a) ∧ Run (f a) tr₂ out) ∨
      (∃ x, Run p tr (.error x) ∧ out = .error x) := by
  induction p generalizing tr with
  | ret a =>
      constructor
      · intro h
        exact Or.inl ⟨a, [], tr, rfl, by simp, h⟩
      · rintro (⟨b, tr₁, tr₂, rfl, h₁, h₂⟩ | ⟨x, h, _⟩)
        · obtain ⟨rfl, h₁⟩ := (run_ret_iff _ _ _).mp h₁
          cases h₁
          exact h₂
        · simp at h
  | raise x =>
      constructor
      · intro h
        exact Or.inr ⟨x, by simpa using h⟩
      · rintro (⟨a, _, _, _, h, _⟩ | ⟨y, h, rfl⟩)
        · simp at h
        · simpa using h
  | call e k ih =>
      rw [bind_call, run_call_iff]
      constructor
      · rintro ⟨r, tr', rfl, h⟩
        rcases (ih r tr').mp h with ⟨a, tr₁, tr₂, rfl, h₁, h₂⟩ | ⟨x, h₁, rfl⟩
        · exact Or.inl ⟨a, ⟨e, r⟩ :: tr₁, tr₂, rfl, Steps.call h₁, h₂⟩
        · exact Or.inr ⟨x, Steps.call h₁, rfl⟩
      · rintro (⟨a, tr₁, tr₂, rfl, h₁, h₂⟩ | ⟨x, h₁, rfl⟩)
        · obtain ⟨r, tr', rfl, h₃⟩ := (run_call_iff _ _ _ _).mp h₁
          exact ⟨r, tr' ++ tr₂, rfl, (ih r _).mpr (Or.inl ⟨a, tr', tr₂, rfl, h₃, h₂⟩)⟩
        · obtain ⟨r, tr', rfl, h₃⟩ := (run_call_iff _ _ _ _).mp h₁
          exact ⟨r, tr', rfl, (ih r _).mpr (Or.inr ⟨x, h₃, rfl⟩)⟩

/-- A sequence that returned ran both of its parts. -/
theorem run_bind_ok_iff (p : Prog S α) (f : α → Prog S β) (tr : List (Event S)) (b : β) :
    Run (p >>= f) tr (.ok b) ↔
      ∃ a tr₁ tr₂, tr = tr₁ ++ tr₂ ∧ Run p tr₁ (.ok a) ∧ Run (f a) tr₂ (.ok b) := by
  simp [run_bind_iff]

/-- Programs are deterministic: a sequence whose trace begins like a run of its first part has
finished it. -/
theorem run_bind_prefix {p : Prog S α} {f : α → Prog S β} {a : α}
    {tr₀ tr rest tail : List (Event S)}
    {out : Except S.Exc β} (h₀ : Run p tr₀ (.ok a)) (h : Run (p >>= f) tr out)
    (happ : tr₀ ++ rest = tr ++ tail) : ∃ tr', tr = tr₀ ++ tr' ∧ rest = tr' ++ tail ∧
      Run (f a) tr' out := by
  induction p generalizing tr₀ tr with
  | ret b =>
      obtain ⟨rfl, hb⟩ := (run_ret_iff _ _ _).mp h₀
      cases hb
      exact ⟨tr, rfl, happ, h⟩
  | raise x => cases ((run_raise_iff _ _ _).mp h₀).2
  | call e k ih =>
      obtain ⟨r, t₀, rfl, h₀'⟩ := (run_call_iff _ _ _ _).mp h₀
      obtain ⟨r', t, rfl, h'⟩ := (run_call_iff _ _ _ _).mp h
      obtain ⟨hev, happ'⟩ := List.cons.inj happ
      cases hev
      obtain ⟨tr', rfl, hrest, hf⟩ := ih r h₀' h' happ'
      exact ⟨tr', rfl, hrest, hf⟩

theorem run_perform_iff (e : S.Call) (tr : List (Event S)) (out : S.Reply e) :
    Run (perform e) tr out ↔ tr = [⟨e, out⟩] := by
  rw [perform, run_call_iff]
  constructor
  · rintro ⟨r, tr', rfl, h⟩
    obtain ⟨rfl, rfl⟩ := (run_ofExcept_iff _ _ _).mp h
    rfl
  · rintro rfl
    exact ⟨_, [], rfl, (run_ofExcept_iff _ _ _).mpr ⟨rfl, rfl⟩⟩

@[simp] theorem run_perform_ok_iff (e : S.Call) (tr : List (Event S)) (a : S.Answer e) :
    Run (perform e) tr (.ok a) ↔ tr = [⟨e, .ok a⟩] := run_perform_iff e tr (.ok a)

/-- One call, that raises or is followed by the rest. -/
theorem run_perform_bind_iff (e : S.Call) (f : S.Answer e → Prog S α) (tr : List (Event S))
    (out : Except S.Exc α) :
    Run (perform e >>= f) tr out ↔
      (∃ a tr', tr = ⟨e, .ok a⟩ :: tr' ∧ Run (f a) tr' out) ∨
        (∃ x, tr = [⟨e, .error x⟩] ∧ out = .error x) := by
  rw [run_bind_iff]
  constructor
  · rintro (⟨a, tr₁, tr₂, rfl, h₁, h₂⟩ | ⟨x, h, rfl⟩)
    · rw [run_perform_ok_iff] at h₁
      subst h₁
      exact Or.inl ⟨a, tr₂, rfl, h₂⟩
    · exact Or.inr ⟨x, (run_perform_iff _ _ _).mp h, rfl⟩
  · rintro (⟨a, tr', rfl, h⟩ | ⟨x, rfl, rfl⟩)
    · exact Or.inl ⟨a, [⟨e, .ok a⟩], tr', rfl, (run_perform_iff _ _ _).mpr rfl, h⟩
    · exact Or.inr ⟨x, (run_perform_iff _ _ _).mpr rfl, rfl⟩

/-- One call followed by the rest. -/
theorem run_perform_bind_ok_iff (e : S.Call) (f : S.Answer e → Prog S α)
    (tr : List (Event S)) (b : α) :
    Run (perform e >>= f) tr (.ok b) ↔
      ∃ a tr', tr = ⟨e, .ok a⟩ :: tr' ∧ Run (f a) tr' (.ok b) := by
  constructor
  · intro h
    obtain ⟨a, tr₁, tr₂, rfl, h₁, h₂⟩ := (run_bind_ok_iff _ _ _ _).mp h
    rw [run_perform_ok_iff] at h₁
    subst h₁
    exact ⟨a, tr₂, rfl, h₂⟩
  · rintro ⟨a, tr', rfl, h⟩
    exact (run_bind_ok_iff _ _ _ _).mpr ⟨a, [⟨e, .ok a⟩], tr', rfl, by simp, h⟩

/-- What follows an answered call. -/
theorem run_perform_bind_cons_iff (e : S.Call) (f : S.Answer e → Prog S α) (a : S.Answer e)
    (tr : List (Event S)) (out : Except S.Exc α) :
    Run (perform e >>= f) (⟨e, .ok a⟩ :: tr) out ↔ Run (f a) tr out := by
  constructor
  · intro h
    have hperform : Run (perform e) [⟨e, .ok a⟩] (.ok a) := (run_perform_ok_iff _ _ _).mpr rfl
    obtain ⟨tr', htr, -, hf⟩ := run_bind_prefix hperform h (List.append_nil _).symm
    rw [(List.cons.inj htr).2]
    exact hf
  · intro h
    exact Steps.call h

@[simp] theorem run_tryPerform_bind_iff (e : S.Call) (f : S.Reply e → Prog S α)
    (tr : List (Event S)) (out : Except S.Exc α) :
    Run (tryPerform e >>= f) tr out ↔ ∃ r tr', tr = ⟨e, r⟩ :: tr' ∧ Run (f r) tr' out := by
  simp [tryPerform]

@[simp] theorem run_attempt_iff (p : Prog S α) (tr : List (Event S)) (o : Except S.Exc α) :
    Run p.attempt tr (.ok o) ↔ Run p tr o := by
  induction p generalizing tr with
  | ret a => simp [attempt]
  | raise x => simp [attempt]
  | call e k ih => simp [attempt, ih]

/-- A `try` never raises. -/
theorem run_attempt_not_error (p : Prog S α) (tr : List (Event S)) (x : S.Exc) :
    ¬ Run p.attempt tr (.error x) := by
  induction p generalizing tr with
  | ret a => simp [attempt]
  | raise x => simp [attempt]
  | call e k ih => simp [attempt, ih]

theorem run_attempt_bind_iff (p : Prog S α) (f : Except S.Exc α → Prog S β) (tr : List (Event S))
    (out : Except S.Exc β) :
    Run (p.attempt >>= f) tr out ↔ ∃ o tr₁ tr₂, tr = tr₁ ++ tr₂ ∧ Run p tr₁ o ∧
      Run (f o) tr₂ out := by
  rw [run_bind_iff]
  constructor
  · rintro (⟨o, tr₁, tr₂, rfl, h₁, h₂⟩ | ⟨x, h, _⟩)
    · exact ⟨o, tr₁, tr₂, rfl, (run_attempt_iff _ _ _).mp h₁, h₂⟩
    · exact absurd h (run_attempt_not_error _ _ _)
  · rintro ⟨o, tr₁, tr₂, rfl, h₁, h₂⟩
    exact Or.inl ⟨o, tr₁, tr₂, rfl, (run_attempt_iff _ _ _).mpr h₁, h₂⟩

/-- A finished program makes no calls. -/
theorem trace_ended {p : Prog S α} {tr : List (Event S)} (hended : p.ended = true)
    (h : Trace p tr) : tr = [] := by
  obtain ⟨q, h⟩ := h
  cases h with
  | refl => rfl
  | call => cases hended

/-- A partial run of a sequence is one of its first part, or goes on after a run of it. -/
theorem trace_bind_iff (p : Prog S α) (f : α → Prog S β) (tr : List (Event S)) :
    Trace (p >>= f) tr ↔ Trace p tr ∨ ∃ a tr₁ tr₂, tr = tr₁ ++ tr₂ ∧ Run p tr₁ (.ok a) ∧
      Trace (f a) tr₂ := by
  induction p generalizing tr with
  | ret a =>
      constructor
      · intro h
        exact Or.inr ⟨a, [], tr, rfl, Steps.refl _, h⟩
      · rintro (⟨q, h⟩ | ⟨b, tr₁, tr₂, rfl, h₁, h₂⟩)
        · cases h
          exact ⟨_, Steps.refl _⟩
        · obtain ⟨rfl, h₁⟩ := (run_ret_iff _ _ _).mp h₁
          cases h₁
          exact h₂
  | raise x =>
      constructor
      · intro h
        rw [trace_ended rfl h]
        exact Or.inl ⟨_, Steps.refl _⟩
      · rintro (h | ⟨b, tr₁, tr₂, rfl, h₁, -⟩)
        · rw [trace_ended rfl h]
          exact ⟨_, Steps.refl _⟩
        · simp at h₁
  | call e k ih =>
      constructor
      · rintro ⟨q, h⟩
        cases h with
        | refl => exact Or.inl ⟨_, Steps.refl _⟩
        | @call _ _ r tr _ h =>
            rcases (ih r tr).mp ⟨q, h⟩ with ⟨q', h'⟩ | ⟨a, tr₁, tr₂, rfl, h₁, h₂⟩
            · exact Or.inl ⟨q', Steps.call h'⟩
            · exact Or.inr ⟨a, ⟨e, r⟩ :: tr₁, tr₂, rfl, Steps.call h₁, h₂⟩
      · rintro (⟨q, h⟩ | ⟨a, tr₁, tr₂, rfl, h₁, h₂⟩)
        · cases h with
          | refl => exact ⟨_, Steps.refl _⟩
          | @call _ _ r tr _ h =>
              obtain ⟨q', h'⟩ := (ih r tr).mpr (Or.inl ⟨q, h⟩)
              exact ⟨q', Steps.call h'⟩
        · obtain ⟨r, tr', rfl, h₃⟩ := (run_call_iff _ _ _ _).mp h₁
          obtain ⟨q', h'⟩ := (ih r _).mpr (Or.inr ⟨a, tr', tr₂, rfl, h₃, h₂⟩)
          exact ⟨q', Steps.call h'⟩

theorem trace_attempt {p : Prog S α} {tr : List (Event S)} (h : Trace p.attempt tr) :
    Trace p tr := by
  induction p generalizing tr with
  | ret a =>
      obtain ⟨q, h⟩ := h
      cases h
      exact ⟨_, Steps.refl _⟩
  | raise x =>
      obtain ⟨q, h⟩ := h
      cases h
      exact ⟨_, Steps.refl _⟩
  | call e k ih =>
      obtain ⟨q, h⟩ := h
      cases h with
      | refl => exact ⟨_, Steps.refl _⟩
      | @call _ _ r tr _ h =>
          obtain ⟨q', h'⟩ := ih r ⟨q, h⟩
          exact ⟨q', Steps.call h'⟩

/-- The replies `low` carry out the calls of `tr`, one after the other, each with its reply. -/
def Carried {T : Sig} (impl : (e : S.Call) → Prog T (S.Reply e)) :
    List (Event S) → List (Event T) → Prop
  | [], low => low = []
  | ev :: tr, low =>
      ∃ first rest, low = first ++ rest ∧ Run (impl ev.call) first (.ok ev.reply) ∧
        Carried impl tr rest

/-- Every call of `tr` has been carried out. -/
theorem Carried.mem {T : Sig} {impl : (e : S.Call) → Prog T (S.Reply e)} {tr : List (Event S)}
    {low : List (Event T)} (h : Carried impl tr low) {ev : Event S} (hev : ev ∈ tr) :
    ∃ part, (∀ event ∈ part, event ∈ low) ∧ Run (impl ev.call) part (.ok ev.reply) := by
  induction tr generalizing low with
  | nil => cases hev
  | cons ev' tr ih =>
      obtain ⟨first, rest, rfl, hfirst, hrest⟩ := h
      rcases List.mem_cons.mp hev with rfl | hev
      · exact ⟨first, fun _ hmem => List.mem_append_left _ hmem, hfirst⟩
      · obtain ⟨part, hpart, hrun⟩ := ih hrest hev
        exact ⟨part, fun event hmem => List.mem_append_right _ (hpart event hmem), hrun⟩

/-- **A run of an interpreted program carries out a run of the program.** -/
theorem run_interpret {T : Sig} {raised : S.Exc → T.Exc} {impl : (e : S.Call) → Prog T (S.Reply e)}
    (himpl : ∀ e low x, ¬ Run (impl e) low (.error x)) {p : Prog S α} {low : List (Event T)}
    {out : Except T.Exc α} (h : Run (p.interpret raised impl) low out) :
    ∃ tr out', Run p tr out' ∧ Carried impl tr low ∧ out = out'.mapError raised := by
  induction p generalizing low with
  | ret a =>
      obtain ⟨rfl, rfl⟩ := (run_ret_iff _ _ _).mp h
      exact ⟨[], .ok a, Steps.refl _, rfl, rfl⟩
  | raise x =>
      obtain ⟨rfl, rfl⟩ := (run_raise_iff _ _ _).mp h
      exact ⟨[], .error x, Steps.refl _, rfl, rfl⟩
  | call e k ih =>
      rcases (run_bind_iff _ _ _ _).mp h with ⟨r, first, rest, rfl, hfirst, hrest⟩ | ⟨x, hraised, -⟩
      · obtain ⟨tr, out', hrun, hcarried, hout⟩ := ih r hrest
        exact ⟨⟨e, r⟩ :: tr, out', Steps.call hrun, ⟨first, rest, rfl, hfirst, hcarried⟩, hout⟩
      · exact absurd hraised (himpl _ _ _)

/-- The beginning of a partial run. -/
theorem Trace.of_append {p : Prog S α} {tr tr' : List (Event S)} (h : Trace p (tr ++ tr')) :
    Trace p tr := by
  obtain ⟨q, h⟩ := h
  induction tr generalizing p with
  | nil => exact ⟨p, Steps.refl p⟩
  | cons ev tr ih =>
      cases h with
      | call h =>
          obtain ⟨q', h'⟩ := ih h
          exact ⟨q', Steps.call h'⟩

/-- A state machine that answers every call. -/
abbrev Handler (S : Sig) (σ : Type) : Type := (e : S.Call) → σ → S.Reply e × σ

variable {σ : Type}

/-- What the program ends with, and the handler's state then. -/
def exec (h : Handler S σ) : Prog S α → σ → Except S.Exc α × σ
  | ret a, s => (.ok a, s)
  | raise x, s => (.error x, s)
  | call e k, s => exec h (k (h e s).1) (h e s).2

/-- The calls the program makes, with the handler's replies. -/
def trace (h : Handler S σ) : Prog S α → σ → List (Event S)
  | ret _, _ => []
  | raise _, _ => []
  | call e k, s => ⟨e, (h e s).1⟩ :: trace h (k (h e s).1) (h e s).2

@[simp] theorem exec_ret (h : Handler S σ) (a : α) (s : σ) : exec h (ret a) s = (.ok a, s) := rfl

@[simp] theorem exec_raise (h : Handler S σ) (x : S.Exc) (s : σ) :
    exec h (raise x : Prog S α) s = (.error x, s) := rfl

@[simp] theorem exec_call (h : Handler S σ) (e : S.Call) (k : S.Reply e → Prog S α) (s : σ) :
    exec h (call e k) s = exec h (k (h e s).1) (h e s).2 := rfl

theorem exec_bind (h : Handler S σ) (p : Prog S α) (f : α → Prog S β) (s : σ) :
    exec h (p >>= f) s = match exec h p s with
      | (.ok a, s') => exec h (f a) s'
      | (.error x, s') => (.error x, s') := by
  induction p generalizing s with
  | ret a => rfl
  | raise x => rfl
  | call e k ih => exact ih _ _

theorem exec_bind_ok {h : Handler S σ} {p : Prog S α} {f : α → Prog S β} {s s' : σ} {a : α}
    (hexec : exec h p s = (.ok a, s')) : exec h (p >>= f) s = exec h (f a) s' := by
  rw [exec_bind, hexec]

theorem exec_bind_error {h : Handler S σ} {p : Prog S α} {f : α → Prog S β} {s s' : σ} {x : S.Exc}
    (hexec : exec h p s = (.error x, s')) : exec h (p >>= f) s = (.error x, s') := by
  rw [exec_bind, hexec]

theorem exec_perform (h : Handler S σ) (e : S.Call) (s : σ) : exec h (perform e) s = h e s := by
  rw [perform, exec_call]
  cases hr : h e s with
  | mk r s' => cases r <;> rfl

theorem exec_perform_bind {h : Handler S σ} {e : S.Call} {f : S.Answer e → Prog S α} {s s' : σ}
    {a : S.Answer e}
    (hanswer : h e s = (.ok a, s')) : exec h (perform e >>= f) s = exec h (f a) s' := by
  rw [exec_bind, exec_perform, hanswer]

theorem exec_tryPerform_bind {h : Handler S σ} {e : S.Call} {f : S.Reply e → Prog S α} {s s' : σ}
    {r : S.Reply e}
    (hanswer : h e s = (r, s')) : exec h (tryPerform e >>= f) s = exec h (f r) s' := by
  rw [tryPerform, bind_call, exec_call, hanswer]
  rfl

theorem exec_attempt (h : Handler S σ) (p : Prog S α) (s : σ) :
    exec h p.attempt s = (.ok (exec h p s).1, (exec h p s).2) := by
  induction p generalizing s with
  | ret a => rfl
  | raise x => rfl
  | call e k ih => exact ih _ _

/-- The trace of a sequence whose first part returned. -/
theorem trace_bind {h : Handler S σ} {p : Prog S α} {f : α → Prog S β} {s s' : σ} {a : α}
    (hexec : exec h p s = (.ok a, s')) : trace h (p >>= f) s = trace h p s ++ trace h (f a) s' := by
  induction p generalizing s with
  | ret b =>
      cases hexec
      rfl
  | raise x => cases hexec
  | call e k ih => exact congrArg (_ :: ·) (ih _ hexec)

/-- Every event of a handler's run is an answer of the handler. -/
theorem mem_trace {h : Handler S σ} {p : Prog S α} {s : σ} {ev : Event S} (hev : ev ∈ trace h p s) :
    ∃ s', ev.reply = (h ev.call s').1 := by
  induction p generalizing s with
  | ret a => cases hev
  | raise x => cases hev
  | call e k ih =>
      rcases List.mem_cons.mp hev with rfl | hev
      · exact ⟨s, rfl⟩
      · exact ih _ hev

/-- A handler's run is a run. -/
theorem run_exec (h : Handler S σ) (p : Prog S α) (s : σ) : Run p (trace h p s) (exec h p s).1 := by
  induction p generalizing s with
  | ret a => exact Steps.refl _
  | raise x => exact Steps.refl _
  | call e k ih => exact Steps.call (ih _ _)

/-- What a handler's run returns, by an observation of it. -/
theorem run_of_exec {h : Handler S σ} {p : Prog S α} {s : σ} {f : α → β} {b : β}
    (hexec : (exec h p s).1.toOption.map f = some b) : ∃ a, Run p (trace h p s) (.ok a) ∧
      f a = b := by
  have hrun := run_exec h p s
  cases hout : (exec h p s).1 with
  | error x =>
      rw [hout] at hexec
      cases hexec
  | ok a =>
      rw [hout] at hrun hexec
      exact ⟨a, hrun, Option.some.inj hexec⟩

/-! ## Specifications -/

/-- An observer of a program's calls: `owes s e` is what the program owes when it makes the call
`e`, `relies s e r` what its environment promises of the reply. -/
structure Monitor (S : Sig) (σ : Type) where
  owes : σ → S.Call → Prop
  relies : σ → (e : S.Call) → S.Reply e → Prop
  next : σ → (e : S.Call) → S.Reply e → σ

/-- Under the monitor the program owes nothing it does not keep, and ends in `Q`. -/
def Spec (M : Monitor S σ) : Prog S α → (Except S.Exc α → σ → Prop) → σ → Prop
  | ret a, Q, s => Q (.ok a) s
  | raise x, Q, s => Q (.error x) s
  | call e k, Q, s => M.owes s e ∧ ∀ r, M.relies s e r → Spec M (k r) Q (M.next s e r)

variable {M : Monitor S σ} {Q Q' : Except S.Exc α → σ → Prop}

@[simp] theorem spec_ret (a : α) (s : σ) : Spec M (ret a) Q s ↔ Q (.ok a) s := Iff.rfl

@[simp] theorem spec_raise (x : S.Exc) (s : σ) : Spec M (raise x) Q s ↔ Q (.error x) s := Iff.rfl

@[simp] theorem spec_call (e : S.Call) (k : S.Reply e → Prog S α) (s : σ) :
    Spec M (call e k) Q s ↔ M.owes s e ∧ ∀ r, M.relies s e r → Spec M (k r) Q (M.next s e r) :=
      Iff.rfl

theorem Spec.mono {p : Prog S α} {s : σ} (h : Spec M p Q s) (hQ : ∀ o s', Q o s' → Q' o s') :
    Spec M p Q' s := by
  induction p generalizing s with
  | ret a => exact hQ _ _ h
  | raise x => exact hQ _ _ h
  | call e k ih => exact ⟨h.1, fun r hr => ih r (h.2 r hr)⟩

/-- The rule of sequencing. -/
theorem Spec.bind {p : Prog S α} {f : α → Prog S β} {R : Except S.Exc β → σ → Prop} {s : σ}
    (h : Spec M p Q s) (hok : ∀ a s', Q (.ok a) s' → Spec M (f a) R s')
    (herr : ∀ x s', Q (.error x) s' → R (.error x) s') : Spec M (p >>= f) R s := by
  induction p generalizing s with
  | ret a => exact hok _ _ h
  | raise x => exact herr _ _ h
  | call e k ih => exact ⟨h.1, fun r hr => ih r (h.2 r hr)⟩

theorem Spec.attempt {p : Prog S α} {R : Except S.Exc (Except S.Exc α) → σ → Prop} {s : σ}
    (h : Spec M p (fun o s' => R (.ok o) s') s) : Spec M p.attempt R s := by
  induction p generalizing s with
  | ret a => exact h
  | raise x => exact h
  | call e k ih => exact ⟨h.1, fun r hr => ih r (h.2 r hr)⟩

/-- A `try` around a program that only has to keep what it owes. -/
theorem Spec.attempt_true {p : Prog S α} {s : σ} (h : Spec M p (fun _ _ => True) s) :
    Spec M p.attempt (fun _ _ => True) s := Spec.attempt h

/-- The rule of a `try` followed by the rest. -/
theorem Spec.attemptBind {p : Prog S α} {f : Except S.Exc α → Prog S β}
    {R : Except S.Exc β → σ → Prop} {s : σ}
    (h : Spec M p Q s) (hf : ∀ o s', Q o s' → Spec M (f o) R s') :
      Spec M (p.attempt >>= f) R s := by
  induction p generalizing s with
  | ret a => exact hf _ _ h
  | raise x => exact hf _ _ h
  | call e k ih => exact ⟨h.1, fun r hr => ih r (h.2 r hr)⟩

theorem Spec.perform {e : S.Call} {s : σ} {R : Except S.Exc (S.Answer e) → σ → Prop}
    (ho : M.owes s e) (h : ∀ r, M.relies s e r → R r (M.next s e r)) : Spec M (perform e) R s := by
  refine ⟨ho, fun r hr => ?_⟩
  cases r <;> exact h _ hr

theorem Spec.ofExceptBind {o : Except S.Exc α} {f : α → Prog S β}
    {R : Except S.Exc β → σ → Prop} {s : σ}
    (hok : ∀ a, o = .ok a → Spec M (f a) R s) (herr : ∀ x, o = .error x → R (.error x) s) :
    Spec M (Prog.ofExcept o >>= f) R s := by
  cases o with
  | ok a => exact hok a rfl
  | error x => exact herr x rfl

/-- The rule of one call followed by the rest. -/
theorem Spec.performBind {e : S.Call} {f : S.Answer e → Prog S α} {s : σ} (ho : M.owes s e)
    (hok : ∀ a, M.relies s e (.ok a) → Spec M (f a) Q (M.next s e (.ok a)))
    (herr : ∀ x, M.relies s e (.error x) → Q (.error x) (M.next s e (.error x))) :
    Spec M (Prog.perform e >>= f) Q s := by
  refine ⟨ho, fun r hr => ?_⟩
  cases r with
  | ok a => exact hok a hr
  | error x => exact herr x hr

theorem Spec.tryPerformBind {e : S.Call} {f : S.Reply e → Prog S α} {s : σ} (ho : M.owes s e)
    (h : ∀ r, M.relies s e r → Spec M (f r) Q (M.next s e r)) :
      Spec M (Prog.tryPerform e >>= f) Q s :=
  ⟨ho, h⟩

section Interpret
variable {T : Sig} {τ : Type} {N : Monitor T τ} {R : σ → τ → Prop} {raised : S.Exc → T.Exc}
  {impl : (e : S.Call) → Prog T (S.Reply e)}

/-- A program meets its specification when every call is carried out by a program that keeps a
relation `R` between the two observers. -/
theorem Spec.interpret (himpl : ∀ e s t, R s t → M.owes s e → Spec N (impl e)
      (fun o t' => ∃ r, o = .ok r ∧ M.relies s e r ∧ R (M.next s e r) t') t)
    {p : Prog S α} {s : σ} {t : τ} (h : Spec M p Q s) (hR : R s t) :
    Spec N (p.interpret raised impl)
      (fun out t' => ∃ out' s', out = out'.mapError raised ∧ Q out' s' ∧ R s' t') t := by
  induction p generalizing s t with
  | ret a => exact ⟨.ok a, s, rfl, h, hR⟩
  | raise x => exact ⟨.error x, s, rfl, h, hR⟩
  | call e k ih =>
      refine Spec.bind (himpl e s t hR h.1) ?_ ?_
      · rintro r t' ⟨r', hr, hrelies, hnext⟩
        cases hr
        exact ih r (h.2 r hrelies) hnext
      · rintro x t' ⟨r, hr, -⟩
        cases hr

end Interpret

/-- Every call of the program satisfies `P`. -/
def Only (P : S.Call → Prop) : Prog S α → Prop
  | ret _ => True
  | raise _ => True
  | call e k => P e ∧ ∀ r, Only P (k r)

theorem Only.bind {P : S.Call → Prop} {p : Prog S α} {f : α → Prog S β} (h : Only P p)
    (hf : ∀ a, Only P (f a)) : Only P (p >>= f) := by
  induction p with
  | ret a => exact hf a
  | raise x => trivial
  | call e k ih => exact ⟨h.1, fun r => ih r (h.2 r)⟩

theorem Only.attempt {P : S.Call → Prop} {p : Prog S α} (h : Only P p) : Only P p.attempt := by
  induction p with
  | ret a => trivial
  | raise x => trivial
  | call e k ih => exact ⟨h.1, fun r => ih r (h.2 r)⟩

theorem Only.perform {P : S.Call → Prop} {e : S.Call} (h : P e) : Only P (Prog.perform e) := by
  refine ⟨h, fun r => ?_⟩
  cases r <;> trivial

theorem Only.tryPerformBind {P : S.Call → Prop} {e : S.Call} {f : S.Reply e → Prog S α} (h : P e)
    (hf : ∀ r, Only P (f r)) : Only P (Prog.tryPerform e >>= f) := ⟨h, hf⟩

theorem Only.ofExcept {P : S.Call → Prop} (o : Except S.Exc α) : Only P (Prog.ofExcept o) := by
  cases o <;> trivial

theorem Only.mono {P P' : S.Call → Prop} {p : Prog S α} (h : Only P p) (hP : ∀ e, P e → P' e) :
    Only P' p := by
  induction p with
  | ret a => trivial
  | raise x => trivial
  | call e k ih => exact ⟨hP e h.1, fun r => ih r (h.2 r)⟩

/-- Every event of a partial run is such a call. -/
theorem Only.trace {P : S.Call → Prop} {p : Prog S α} {tr : List (Event S)} (h : Only P p)
    (htr : Trace p tr) :
    ∀ ev ∈ tr, P ev.call := by
  obtain ⟨q, hsteps⟩ := htr
  induction hsteps with
  | refl => simp
  | @call e k r tr q _ ih =>
      intro ev hev
      rcases List.mem_cons.mp hev with rfl | hev
      · exact h.1
      · exact ih (h.2 r) ev hev

/-- Every event of a run is such a call. -/
theorem Only.run {P : S.Call → Prop} {p : Prog S α} {tr : List (Event S)} {out : Except S.Exc α}
    (h : Only P p) (hrun : Run p tr out) : ∀ ev ∈ tr, P ev.call := h.trace hrun.trace

/-- Handlers that answer these calls alike run the program alike. -/
theorem Only.exec_congr {P : S.Call → Prop} {p : Prog S α} {τ : Type}
    {handler handler' : Handler S τ} (h : Only P p)
    (hagree : ∀ e, P e → ∀ t, handler e t = handler' e t) (t : τ) :
      exec handler p t = exec handler' p t := by
  induction p generalizing t with
  | ret a => rfl
  | raise x => rfl
  | call e k ih =>
      rw [exec_call, exec_call, hagree e h.1 t]
      exact ih _ (h.2 _) _

/-- Calls that neither owe anything nor move the observer keep it where it is. -/
theorem Only.spec {P : S.Call → Prop} {p : Prog S α} {s : σ} (h : Only P p)
    (hP : ∀ e, P e → M.owes s e ∧ ∀ r, M.next s e r = s) : Spec M p (fun _ s' => s' = s) s := by
  induction p with
  | ret a => rfl
  | raise x => rfl
  | call e k ih =>
      refine ⟨(hP e h.1).1, fun r _ => ?_⟩
      rw [(hP e h.1).2 r]
      exact ih r (h.2 r)

/-- Calls that owe nothing and keep an invariant of the observer. -/
theorem Only.preserves {P : S.Call → Prop} {p : Prog S α} {I : σ → Prop} {s : σ} (h : Only P p)
    (hP : ∀ s e, P e → M.owes s e ∧ ∀ r, I s → I (M.next s e r)) (hI : I s) :
      Spec M p (fun _ s' => I s') s := by
  induction p generalizing s with
  | ret a => exact hI
  | raise x => exact hI
  | call e k ih => exact ⟨(hP s e h.1).1, fun r _ => ih r (h.2 r) ((hP s e h.1).2 r hI)⟩

/-- The observer after the events `tr`. -/
def Monitor.after (M : Monitor S σ) (s : σ) : List (Event S) → σ
  | [] => s
  | ev :: tr => M.after (M.next s ev.call ev.reply) tr

/-- The environment kept its side along `tr`. -/
def Monitor.Kept (M : Monitor S σ) (s : σ) : List (Event S) → Prop
  | [] => True
  | ev :: tr => M.relies s ev.call ev.reply ∧ M.Kept (M.next s ev.call ev.reply) tr

theorem Monitor.kept_of_forall {s : σ} {tr : List (Event S)}
    (h : ∀ s, ∀ ev ∈ tr, M.relies s ev.call ev.reply) :
    M.Kept s tr := by
  induction tr generalizing s with
  | nil => trivial
  | cons ev tr ih =>
      exact ⟨h s ev List.mem_cons_self, ih fun s ev' hev' => h s ev' (List.mem_cons_of_mem _ hev')⟩

/-- The program kept its side along `tr`. -/
def Monitor.Paid (M : Monitor S σ) (s : σ) : List (Event S) → Prop
  | [] => True
  | ev :: tr => M.owes s ev.call ∧ M.Paid (M.next s ev.call ev.reply) tr

/-- What has been paid was owed at each event. -/
theorem Monitor.Paid.owes {s : σ} {before after : List (Event S)} {ev : Event S}
    (h : M.Paid s (before ++ ev :: after)) : M.owes (M.after s before) ev.call := by
  induction before generalizing s with
  | nil => exact h.1
  | cons ev' before ih => exact ih h.2

/-- A specification holds along every partial run. -/
theorem Spec.steps {p q : Prog S α} {tr : List (Event S)} {s : σ} (h : Spec M p Q s)
    (hst : Steps p tr q) (hk : M.Kept s tr) : M.Paid s tr ∧ Spec M q Q (M.after s tr) := by
  induction hst generalizing s with
  | refl => exact ⟨trivial, h⟩
  | call _ ih =>
      obtain ⟨hpaid, hq⟩ := ih (h.2 _ hk.1) hk.2
      exact ⟨⟨h.1, hpaid⟩, hq⟩

/-- A specification holds at the end of every run. -/
theorem Spec.run {p : Prog S α} {tr : List (Event S)} {out : Except S.Exc α} {s : σ}
    (h : Spec M p Q s) (hr : Run p tr out) (hk : M.Kept s tr) : Q out (M.after s tr) := by
  have := (h.steps hr hk).2
  cases out <;> exact this

/-- What holds at the end of every run of a program that owes nothing is a specification of it. -/
theorem Spec.of_run {P : S.Call → Prop} {p : Prog S α} {s : σ} (h : Only P p)
    (hP : ∀ s e, P e → M.owes s e)
    (hr : ∀ tr out, Run p tr out → M.Kept s tr → Q out (M.after s tr)) : Spec M p Q s := by
  induction p generalizing s with
  | ret a => exact hr [] (.ok a) (Steps.refl _) trivial
  | raise x => exact hr [] (.error x) (Steps.refl _) trivial
  | call e k ih =>
      refine ⟨hP s e h.1, fun r hrel => ih r (h.2 r) fun tr out hrun hk => ?_⟩
      exact hr (⟨e, r⟩ :: tr) out (Steps.call hrun) ⟨hrel, hk⟩

/-- A program that owes nothing meets the trivial specification. -/
theorem Only.trivial_spec {P : S.Call → Prop} {p : Prog S α} {s : σ} (h : Only P p)
    (hP : ∀ s e, P e → M.owes s e) : Spec M p (fun _ _ => True) s :=
  Spec.of_run h hP fun _ _ _ _ => trivial

/-! ## Other observers -/

/-- A program that keeps more, and relies on less, keeps what it owes. -/
theorem Spec.weaken {M' : Monitor S σ} {p : Prog S α} {s : σ} (h : Spec M p Q s)
    (howes : ∀ s e, M.owes s e → M'.owes s e) (hrelies : ∀ s e r, M'.relies s e r → M.relies s e r)
    (hnext : ∀ s e r, M'.next s e r = M.next s e r) : Spec M' p Q s := by
  induction p generalizing s with
  | ret a => exact h
  | raise x => exact h
  | call e k ih =>
      refine ⟨howes s e h.1, fun r hr => ?_⟩
      rw [hnext]
      exact ih r (h.2 r (hrelies s e r hr))

section Both
variable {τ : Type}

/-- Two observers side by side. -/
def Monitor.both (M : Monitor S σ) (N : Monitor S τ) : Monitor S (σ × τ) where
  owes st e := M.owes st.1 e ∧ N.owes st.2 e
  relies st e r := M.relies st.1 e r ∧ N.relies st.2 e r
  next st e r := (M.next st.1 e r, N.next st.2 e r)

variable {N : Monitor S τ} {R : Except S.Exc α → τ → Prop}

theorem Spec.both {p : Prog S α} {s : σ} {t : τ} (h : Spec M p Q s) (h' : Spec N p R t) :
    Spec (M.both N) p (fun o st => Q o st.1 ∧ R o st.2) (s, t) := by
  induction p generalizing s t with
  | ret a => exact ⟨h, h'⟩
  | raise x => exact ⟨h, h'⟩
  | call e k ih => exact ⟨⟨h.1, h'.1⟩, fun r hr => ih r (h.2 r hr.1) (h'.2 r hr.2)⟩

/-- What the second observer sees, if the first relies on nothing. -/
theorem Spec.second {p : Prog S α} {Q : Except S.Exc α → σ × τ → Prop} {s : σ} {t : τ}
    (h : Spec (M.both N) p Q (s, t))
    (hrelies : ∀ s e r, M.relies s e r) : Spec N p (fun _ _ => True) t := by
  induction p generalizing s t with
  | ret a => trivial
  | raise x => trivial
  | call e k ih => exact ⟨h.1.2, fun r hr => ih r (h.2 r ⟨hrelies s e r, hr⟩)⟩

end Both

/-- The observer that judges every call by itself. -/
def Monitor.stateless (owes : S.Call → Prop) (relies : (e : S.Call) → S.Reply e → Prop) :
    Monitor S Unit where
  owes _ := owes
  relies _ := relies
  next _ _ _ := ()

section Stateless
variable {owes : S.Call → Prop} {relies : (e : S.Call) → S.Reply e → Prop}

theorem Only.stateless {p : Prog S α} (h : Only owes p) :
    Spec (.stateless owes relies) p (fun _ _ => True) () :=
  h.trivial_spec fun _ _ => id

theorem paid_stateless {tr : List (Event S)} (h : (Monitor.stateless owes relies).Paid () tr) :
    ∀ ev ∈ tr, owes ev.call := by
  induction tr with
  | nil => simp
  | cons ev tr ih =>
      intro ev' hev'
      rcases List.mem_cons.mp hev' with rfl | hev'
      · exact h.1
      · exact ih h.2 ev' hev'

end Stateless

/-! ## Histories -/

/-- The observer that remembers every event. -/
def Monitor.history (owes : List (Event S) → S.Call → Prop)
    (keeps : (e : S.Call) → S.Reply e → Prop) :
    Monitor S (List (Event S)) where
  owes := owes
  relies _ := keeps
  next tr e r := tr ++ [⟨e, r⟩]

variable {owes : List (Event S) → S.Call → Prop} {keeps : (e : S.Call) → S.Reply e → Prop}

theorem after_history (past tr : List (Event S)) :
    (Monitor.history owes keeps).after past tr = past ++ tr := by
  induction tr generalizing past with
  | nil => exact (List.append_nil past).symm
  | cons ev tr ih =>
      rw [Monitor.after, ih]
      exact List.append_assoc past [ev] tr

/-- What was owed at an event of the history has been paid, knowing the events before it. -/
theorem paid_history {past before after : List (Event S)} {ev : Event S}
    (h : (Monitor.history owes keeps).Paid past (before ++ ev :: after)) :
      owes (past ++ before) ev.call := by
  have howes := h.owes
  rw [after_history] at howes
  exact howes

theorem kept_history {past tr : List (Event S)}
    (h : ∀ ev ∈ tr, keeps ev.call ev.reply) : (Monitor.history owes keeps).Kept past tr := by
  induction tr generalizing past with
  | nil => trivial
  | cons ev tr ih =>
      exact ⟨h ev List.mem_cons_self, ih fun ev' hev' => h ev' (List.mem_cons_of_mem _ hev')⟩

theorem of_kept_history {past tr : List (Event S)}
    (h : (Monitor.history owes keeps).Kept past tr) {ev : Event S} (hev : ev ∈ tr) :
    keeps ev.call ev.reply := by
  induction tr generalizing past with
  | nil => cases hev
  | cons ev' tr ih =>
      rcases List.mem_cons.mp hev with rfl | hev
      · exact h.1
      · exact ih h.2 hev

end Effects
