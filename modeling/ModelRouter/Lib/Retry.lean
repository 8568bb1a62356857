import ModelRouter.Lib.Prog

/-!
# Bounded retries

`retryLoop` calls until an outcome that is not retried, or until it has called `limit` times, and
waits between two calls.

* `Tries` : the outcomes of a loop, of which all but the last were retried;
* `run_retryLoop` : a run of the loop is its calls with the waits between them, and ends with the
  last outcome;
* `Spec.retryLoop` : the rule of the loop, with an invariant before and one after each call;
* `Quiet` : a program that raises nothing of its own (`Quiet.run`); `answersOf` : the answers of
  selected calls.
-/

namespace Effects
open Prog

variable {S : Sig} {ε ρ σ : Type}

section
variable (call : Prog S (Except ε ρ)) (retryable : ε → Bool) (wait : Nat → Prog S Unit)
  (limit : Nat)

/-- The loop, after `attempt` calls. -/
def retryLoop (attempt : Nat) : Prog S (Except ε ρ) :=
  call >>= fun outcome => match outcome with
    | .ok a => ret (.ok a)
    | .error x =>
      if h : retryable x = true ∧ attempt + 1 < limit then
        wait (attempt + 1) >>= fun _ => retryLoop (attempt + 1)
      else ret (.error x)
termination_by limit - attempt

/-- The events of a loop that has called: its calls, with a wait after each but the last. -/
inductive Looped : Nat → List (Event S) → List (Except ε ρ) → Prop
  | last {attempt : Nat} {tr : List (Event S)} {o : Except ε ρ} (hcall : Run call tr (.ok o)) :
    Looped attempt tr [o]
  | next {attempt : Nat} {tr₁ tr₂ tr₃ : List (Event S)} {o : Except ε ρ}
      {outcomes : List (Except ε ρ)}
      (hcall : Run call tr₁ (.ok o)) (hwait : Run (wait (attempt + 1)) tr₂ (.ok ()))
      (h : Looped (attempt + 1) tr₃ outcomes) : Looped attempt (tr₁ ++ (tr₂ ++ tr₃)) (o :: outcomes)

end

/-- The outcomes of at most `limit` calls, up to the first one that is not retried. -/
structure Tries (retryable : ε → Bool) (limit : Nat) (outcomes : List (Except ε ρ)) : Prop where
  tried : outcomes ≠ []
  bounded : outcomes.length ≤ limit
  retried : ∀ o ∈ outcomes.dropLast, ∃ x, o = .error x ∧ retryable x = true
  stopped : ∀ x, outcomes.getLast? = some (.error x) → retryable x = true → outcomes.length = limit

variable {call : Prog S (Except ε ρ)} {retryable : ε → Bool} {wait : Nat → Prog S Unit}
  {limit : Nat}

theorem Tries.last {o : Except ε ρ} {n : Nat} (h : ∀ x, o = .error x → retryable x = true → n = 0) :
    Tries retryable (n + 1) [o] where
  tried := by simp
  bounded := by simp
  retried := by simp
  stopped x hlast hx := by
    rw [List.getLast?_singleton, Option.some.injEq] at hlast
    rw [h x hlast hx]
    rfl

theorem Tries.next {outcomes : List (Except ε ρ)} {n : Nat} {x : ε} (h : Tries retryable n outcomes)
    (hx : retryable x = true) : Tries retryable (n + 1) (.error x :: outcomes) where
  tried := by simp
  bounded := Nat.succ_le_succ h.bounded
  retried o ho := by
    rw [List.dropLast_cons_of_ne_nil h.tried, List.mem_cons] at ho
    rcases ho with rfl | ho
    · exact ⟨x, rfl, hx⟩
    · exact h.retried o ho
  stopped y hlast hy := by
    obtain ⟨o, rest, rfl⟩ := List.exists_cons_of_ne_nil h.tried
    rw [List.getLast?_cons_cons] at hlast
    rw [List.length_cons, h.stopped y hlast hy]

/-- **A run of the loop** is one of its calls and waits, and ends with the last outcome. -/
theorem run_retryLoop {attempt : Nat} {tr : List (Event S)} {o : Except ε ρ}
    (h : Run (retryLoop call retryable wait limit attempt) tr (.ok o)) (hlt : attempt < limit) :
    ∃ outcomes, Looped call wait attempt tr outcomes ∧ Tries retryable (limit - attempt) outcomes ∧
      outcomes.getLast? = some o := by
  obtain ⟨n, hn⟩ : ∃ n, limit - attempt = n + 1 := ⟨limit - attempt - 1, by omega⟩
  induction n generalizing attempt tr with
  | zero =>
      rw [retryLoop] at h
      obtain ⟨outcome, tr₁, tr₂, rfl, hcall, hrest⟩ := (run_bind_ok_iff _ _ _ _).mp h
      have hlast : tr₂ = [] ∧ o = outcome := by
        cases outcome with
        | ok a => simpa using hrest
        | error x =>
            dsimp only at hrest
            rw [dif_neg (by omega)] at hrest
            simpa using hrest
      rw [hlast.1, hlast.2, List.append_nil, hn]
      exact ⟨[outcome], Looped.last hcall, Tries.last fun _ _ _ => rfl, rfl⟩
  | succ n ih =>
      rw [retryLoop] at h
      obtain ⟨outcome, tr₁, tr₂, rfl, hcall, hrest⟩ := (run_bind_ok_iff _ _ _ _).mp h
      rw [hn]
      cases outcome with
      | ok a =>
          obtain ⟨rfl, ho⟩ := (run_ret_iff _ _ _).mp hrest
          cases ho
          rw [List.append_nil]
          exact ⟨[.ok a], Looped.last hcall, Tries.last (by simp), rfl⟩
      | error x =>
          dsimp only at hrest
          by_cases hretry : retryable x = true
          · rw [dif_pos ⟨hretry, by omega⟩] at hrest
            obtain ⟨_, tr₃, tr₄, rfl, hwait, hloop⟩ := (run_bind_ok_iff _ _ _ _).mp hrest
            obtain ⟨outcomes, hlooped, htries, hlast⟩ := ih hloop (by omega) (by omega)
            rw [show limit - (attempt + 1) = n + 1 by omega] at htries
            refine ⟨.error x :: outcomes, Looped.next hcall hwait hlooped, htries.next hretry, ?_⟩
            obtain ⟨o', rest, rfl⟩ := List.exists_cons_of_ne_nil htries.tried
            rw [List.getLast?_cons_cons]
            exact hlast
          · rw [dif_neg fun hboth => hretry hboth.1] at hrest
            obtain ⟨rfl, ho⟩ := (run_ret_iff _ _ _).mp hrest
            cases ho
            rw [List.append_nil]
            refine ⟨[.error x], Looped.last hcall, Tries.last fun y hy hyes => ?_, rfl⟩
            cases hy
            exact absurd hyes hretry

/-! ## Answered calls -/

/-- Every call was answered. -/
def Answered (tr : List (Event S)) : Prop := ∀ ev ∈ tr, ∃ a, ev.reply = .ok a

/-- The program raises nothing while its calls are answered. -/
def Quiet {α : Type} : Prog S α → Prop
  | ret _ => True
  | raise _ => False
  | .call _ k => ∀ a, Quiet (k (.ok a))

theorem Quiet.bind {α β : Type} {p : Prog S α} {f : α → Prog S β} (h : Quiet p)
    (hf : ∀ a, Quiet (f a)) :
    Quiet (p >>= f) := by
  induction p with
  | ret a => exact hf a
  | raise x => exact h.elim
  | call e k ih => exact fun a => ih (.ok a) (h a)

theorem Quiet.perform (e : S.Call) : Quiet (Prog.perform e) := fun _ => trivial

/-- Such a program returns once its calls are answered. -/
theorem Quiet.run {α : Type} {p : Prog S α} {tr : List (Event S)} {out : Except S.Exc α}
    (h : Quiet p) (hrun : Run p tr out) (hanswered : Answered tr) : ∃ a, out = .ok a := by
  induction p generalizing tr with
  | ret a => exact ⟨a, ((run_ret_iff _ _ _).mp hrun).2⟩
  | raise x => exact h.elim
  | call e k ih =>
      obtain ⟨r, tr', rfl, hrest⟩ := (run_call_iff _ _ _ _).mp hrun
      cases r with
      | ok a => exact ih (.ok a) (h a) hrest fun ev hev => hanswered ev (List.mem_cons_of_mem _ hev)
      | error x =>
          obtain ⟨a, ha⟩ := hanswered _ List.mem_cons_self
          cases ha

theorem Quiet.retryLoop (hcall : Quiet call) (hwait : ∀ k, Quiet (wait k)) (attempt : Nat) :
    Quiet (Effects.retryLoop call retryable wait limit attempt) := by
  obtain ⟨n, hn⟩ : ∃ n, n = limit - attempt := ⟨_, rfl⟩
  induction n generalizing attempt with
  | zero =>
      rw [Effects.retryLoop]
      refine hcall.bind fun outcome => ?_
      cases outcome with
      | ok a => trivial
      | error x =>
          dsimp only
          rw [dif_neg (by omega)]
          trivial
  | succ n ih =>
      rw [Effects.retryLoop]
      refine hcall.bind fun outcome => ?_
      cases outcome with
      | ok a => trivial
      | error x =>
          dsimp only
          split
          · exact (hwait _).bind fun _ => ih (attempt + 1) (by omega)
          · trivial

/-- The loop makes the calls of its parts. -/
theorem Only.retryLoop {P : S.Call → Prop} (hcall : Only P call) (hwait : ∀ k, Only P (wait k))
    (attempt : Nat) :
    Only P (Effects.retryLoop call retryable wait limit attempt) := by
  obtain ⟨n, hn⟩ : ∃ n, n = limit - attempt := ⟨_, rfl⟩
  induction n generalizing attempt with
  | zero =>
      rw [Effects.retryLoop]
      refine hcall.bind fun outcome => ?_
      cases outcome with
      | ok a => trivial
      | error x =>
          dsimp only
          rw [dif_neg (by omega)]
          trivial
  | succ n ih =>
      rw [Effects.retryLoop]
      refine hcall.bind fun outcome => ?_
      cases outcome with
      | ok a => trivial
      | error x =>
          dsimp only
          split
          · exact (hwait _).bind fun _ => ih (attempt + 1) (by omega)
          · trivial

/-- The selected answers of a trace. -/
def answersOf {β : Type} (select : (e : S.Call) → S.Answer e → Option β) (tr : List (Event S)) :
    List β :=
  tr.filterMap fun ev => match ev.reply with
    | .ok a => select ev.call a
    | .error _ => none

theorem answersOf_append {β : Type} (select : (e : S.Call) → S.Answer e → Option β)
    (tr tr' : List (Event S)) :
    answersOf select (tr ++ tr') = answersOf select tr ++ answersOf select tr' :=
      List.filterMap_append

/-- The outcomes of a loop are the answers of its calls. -/
theorem Looped.answersOf {select : (e : S.Call) → S.Answer e → Option (Except ε ρ)}
    (hcall : ∀ tr o, Run call tr (.ok o) → answersOf select tr = [o])
    (hwait : ∀ k tr, Run (wait k) tr (.ok ()) → answersOf select tr = []) {attempt : Nat}
    {tr : List (Event S)}
    {outcomes : List (Except ε ρ)} (h : Looped call wait attempt tr outcomes) :
    answersOf select tr = outcomes := by
  induction h with
  | last hrun => exact hcall _ _ hrun
  | next hrun hpause _ ih =>
      rw [answersOf_append, answersOf_append, hcall _ _ hrun, hwait _ _ hpause, ih]
      rfl

/-! ## The rule of the loop -/

/-- The rule of the loop: `I` holds before each call, `J` after it, and both give `Done`. -/
theorem Spec.retryLoop {τ : Type} {M : Monitor S τ} {I J : Nat → τ → Prop} {Done : τ → Prop}
    (hcall : ∀ k s, k < limit → I k s → Spec M call (fun _ => J k) s)
    (hwait : ∀ k s, k + 1 < limit → J k s → Spec M (wait (k + 1)) (fun _ => I (k + 1)) s)
    (hI : ∀ k s, I k s → Done s) (hJ : ∀ k s, J k s → Done s) {attempt : Nat} {s : τ}
    (hlt : attempt < limit)
    (h : I attempt s) : Spec M (Effects.retryLoop call retryable wait limit attempt) (fun _ =>
      Done) s := by
  obtain ⟨n, hn⟩ : ∃ n, limit - attempt = n + 1 := ⟨limit - attempt - 1, by omega⟩
  induction n generalizing attempt s with
  | zero =>
      rw [Effects.retryLoop]
      refine Spec.bind (hcall attempt s hlt h) (fun outcome s' hJ' => ?_) fun _ s' => hJ attempt s'
      cases outcome with
      | ok a => exact hJ attempt s' hJ'
      | error x =>
          dsimp only
          rw [dif_neg (by omega)]
          exact hJ attempt s' hJ'
  | succ n ih =>
      rw [Effects.retryLoop]
      refine Spec.bind (hcall attempt s hlt h) (fun outcome s' hJ' => ?_) fun _ s' => hJ attempt s'
      cases outcome with
      | ok a => exact hJ attempt s' hJ'
      | error x =>
          dsimp only
          split
          · refine Spec.bind (hwait attempt s' (by omega) hJ') (fun _ s'' hI' => ?_) fun _ s'' =>
              hI (attempt + 1) s''
            exact ih (by omega) hI' (by omega)
          · exact hJ attempt s' hJ'

end Effects
