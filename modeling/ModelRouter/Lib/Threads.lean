import ModelRouter.Lib.Prog

/-!
# Threads over a shared state

Threads are programs whose calls a `Machine` answers on a state they share, in any interleaving; the
machine may also move by itself. A configuration keeps the log of all calls, the latest first, each
with the state before it.

* `Reachable` : the configurations of all interleavings, with a condition on the way;
* `Monitor.phase` : where an observer of one thread stands, read off the log;
* `Lawful` : the states and logs of threads that keep a protocol; `Reachable.lawful` : threads whose
  programs meet the specification keep it, so invariants are proved over `Lawful` alone;
* `Lawful.split` : what was the case at an entry of the log; `Reachable.steps` : the calls of one
  thread (`own`) are a partial run of its program; `Reachable.exec` : one thread run to its end;
* `Serves` : the replies of one run.
-/

namespace Effects
open Prog

/-- What a call does to the shared state, and how that state moves by itself. -/
structure Machine (S : Sig) (σ : Type) where
  act : σ → (e : S.Call) → S.Reply e → σ → Prop
  tick : σ → σ → Prop

/-- A call of a thread, with the state before it. -/
structure Entry (S : Sig) (σ ι : Type) where
  thread : ι
  before : σ
  event : Event S

structure Config (S : Sig) (σ ι α : Type) where
  shared : σ
  threads : ι → Prog S α
  log : List (Entry S σ ι)

variable {S : Sig} {σ ι α φ : Type} [DecidableEq ι]

inductive Machine.Step (m : Machine S σ) : Config S σ ι α → Config S σ ι α → Prop
  | call {c : Config S σ ι α} {i : ι} {e : S.Call} {k : S.Reply e → Prog S α}
      {r : S.Reply e} {s' : σ} (hthread : c.threads i = .call e k) (hact : m.act c.shared e r s') :
      Step m c { shared := s', threads := Function.update c.threads i (k r), log := ⟨i, c.shared, ⟨e, r⟩⟩ :: c.log }
  | tick {c : Config S σ ι α} {s' : σ} (htick : m.tick c.shared s') :
    Step m c { c with shared := s' }

/-- The configurations the threads of `c₀` can reach through configurations that satisfy `G`. -/
inductive Machine.Reachable (m : Machine S σ) (G : σ → List (Entry S σ ι) → Prop)
    (c₀ : Config S σ ι α) :
    Config S σ ι α → Prop
  | refl : Reachable m G c₀ c₀
  | step {c c' : Config S σ ι α} (h : Reachable m G c₀ c) (hstep : m.Step c c')
      (hG : G c'.shared c'.log) :
      Reachable m G c₀ c'

/-- Where the observer of thread `i` stands after the log. -/
def Monitor.phase (M : Monitor S φ) (m₀ : φ) (i : ι) : List (Entry S σ ι) → φ
  | [] => m₀
  | entry :: log =>
    if entry.thread = i then M.next (M.phase m₀ i log) entry.event.call entry.event.reply
      else M.phase m₀ i log

/-- The states and logs of threads that owe nothing they do not keep. -/
inductive Machine.Lawful (m : Machine S σ) (M : Monitor S φ) (m₀ : φ)
    (G : σ → List (Entry S σ ι) → Prop) (s₀ : σ) :
    σ → List (Entry S σ ι) → Prop
  | init : Lawful m M m₀ G s₀ s₀ []
  | call {s s' : σ} {log : List (Entry S σ ι)} {i : ι} {e : S.Call} {r : S.Reply e}
      (h : Lawful m M m₀ G s₀ s log) (howes : M.owes (M.phase m₀ i log) e) (hact : m.act s e r s')
      (hG : G s' (⟨i, s, ⟨e, r⟩⟩ :: log)) : Lawful m M m₀ G s₀ s' (⟨i, s, ⟨e, r⟩⟩ :: log)
  | tick {s s' : σ} {log : List (Entry S σ ι)} (h : Lawful m M m₀ G s₀ s log) (htick : m.tick s s')
      (hG : G s' log) : Lawful m M m₀ G s₀ s' log

variable {m : Machine S σ} {M : Monitor S φ} {m₀ : φ} {G : σ → List (Entry S σ ι) → Prop} {s₀ s : σ}
  {log : List (Entry S σ ι)}

@[simp] theorem Monitor.phase_cons_self (entry : Entry S σ ι) (log : List (Entry S σ ι)) :
    M.phase m₀ entry.thread (entry :: log) =
      M.next (M.phase m₀ entry.thread log) entry.event.call entry.event.reply := if_pos rfl

theorem Monitor.phase_cons_own (i : ι) (s : σ) (event : Event S) (log : List (Entry S σ ι)) :
    M.phase m₀ i (⟨i, s, event⟩ :: log) = M.next (M.phase m₀ i log) event.call event.reply :=
      if_pos rfl

theorem Monitor.phase_cons_of_ne {i : ι} {entry : Entry S σ ι} (h : entry.thread ≠ i) :
    M.phase m₀ i (entry :: log) = M.phase m₀ i log := if_neg h

/-- **Threads whose programs meet a specification keep its protocol**, if the machine keeps the
environment's side. -/
theorem Machine.Reachable.lawful {Q : ι → Except S.Exc α → φ → Prop} {c₀ c : Config S σ ι α}
    (hlog : c₀.log = [])
    (hspec : ∀ i, Spec M (c₀.threads i) (Q i) m₀)
    (hrelies : ∀ s log i e r s', m.Lawful M m₀ G c₀.shared s log → M.owes (M.phase m₀ i log) e →
      m.act s e r s' →
      M.relies (M.phase m₀ i log) e r)
    (h : m.Reachable G c₀ c) :
    m.Lawful M m₀ G c₀.shared c.shared c.log ∧ ∀ i, Spec M (c.threads i) (Q i) (M.phase m₀ i c.log) := by
  induction h with
  | refl =>
      rw [hlog]
      exact ⟨Lawful.init, hspec⟩
  | @step c c' _ hstep hG ih =>
      obtain ⟨hlawful, hthreads⟩ := ih
      cases hstep with
      | tick htick => exact ⟨hlawful.tick htick hG, hthreads⟩
      | @call i e k r s' hthread hact =>
          have hi := hthreads i
          rw [hthread] at hi
          refine ⟨hlawful.call hi.1 hact hG, fun j => ?_⟩
          by_cases hj : i = j
          · subst hj
            rw [Monitor.phase, if_pos rfl]
            dsimp only
            rw [Function.update_self]
            exact hi.2 r (hrelies _ _ _ _ _ _ hlawful hi.1 hact)
          · rw [Monitor.phase, if_neg hj]
            dsimp only
            rw [Function.update_of_ne (Ne.symm hj)]
            exact hthreads j

theorem Machine.Reachable.trans {c₀ c c' : Config S σ ι α} (h : m.Reachable G c₀ c) (h' : m.Reachable G c c') :
    m.Reachable G c₀ c' := by
  induction h' with
  | refl => exact h
  | step _ hstep hG ih => exact ih.step hstep hG

/-- What a thread has returned stays. -/
theorem Machine.Reachable.stays_returned {c c' : Config S σ ι α} (h : m.Reachable G c c') {i : ι} {a : α}
    (hreturned : c.threads i = .ret a) : c'.threads i = .ret a := by
  induction h with
  | refl => exact hreturned
  | @step c' c'' _ hstep _ ih =>
      cases hstep with
      | tick => exact ih
      | @call j e k r s' hthread _ =>
          have hne : i ≠ j := by
            rintro rfl
            rw [ih] at hthread
            cases hthread
          dsimp only
          rw [Function.update_of_ne hne]
          exact ih

/-- The log only grows. -/
theorem Machine.Reachable.log_suffix {c₀ c : Config S σ ι α} (h : m.Reachable G c₀ c) :
    ∃ later, c.log = later ++ c₀.log := by
  induction h with
  | refl => exact ⟨[], rfl⟩
  | @step c c' _ hstep _ ih =>
      obtain ⟨later, hlater⟩ := ih
      cases hstep with
      | tick => exact ⟨later, hlater⟩
      | @call i e k r s' _ _ => exact ⟨⟨i, c.shared, ⟨e, r⟩⟩ :: later, congrArg (_ :: ·) hlater⟩

/-- The condition on the way holds at its end. -/
theorem Machine.Lawful.guard (h : m.Lawful M m₀ G s₀ s log) (hinit : G s₀ []) : G s log := by
  cases h with
  | init => exact hinit
  | call _ _ _ hG => exact hG
  | tick _ _ hG => exact hG

/-- One condition on the way gives another. -/
theorem Machine.Lawful.mono {G' : σ → List (Entry S σ ι) → Prop} (h : m.Lawful M m₀ G s₀ s log) (hinit : G s₀ [])
    (hinit' : G' s₀ [])
    (hcall : ∀ s s' log i e r, G s log → G s' (⟨i, s, ⟨e, r⟩⟩ :: log) →
      G' s' (⟨i, s, ⟨e, r⟩⟩ :: log))
    (htick : ∀ s s' log, G' s log → G s' log → G' s' log) : m.Lawful M m₀ G' s₀ s log := by
  induction h with
  | init => exact .init
  | call h howes hact hG ih => exact ih.call howes hact (hcall _ _ _ _ _ _ (h.guard hinit) hG)
  | tick _ ht hG ih => exact ih.tick ht (htick _ _ _ (ih.guard hinit') hG)

section Both
variable {ψ : Type} {N : Monitor S ψ} {n₀ : ψ}

theorem Monitor.phase_image (f : φ → ψ)
    (hnext : ∀ s e r, N.next (f s) e r = f (M.next s e r)) (i : ι)
    (log : List (Entry S σ ι)) : N.phase (f m₀) i log = f (M.phase m₀ i log) := by
  induction log with
  | nil => rfl
  | cons entry log ih =>
      rw [phase, phase, ih, hnext]
      split <;> rfl

/-- Threads that keep a protocol keep a coarser one. -/
theorem Machine.Lawful.image (f : φ → ψ) (hnext : ∀ s e r, N.next (f s) e r = f (M.next s e r))
    (howes : ∀ s e, M.owes s e → N.owes (f s) e) (h : m.Lawful M m₀ G s₀ s log) :
      m.Lawful N (f m₀) G s₀ s log := by
  induction h with
  | init => exact .init
  | call _ howes' hact hG ih =>
      refine ih.call ?_ hact hG
      rw [Monitor.phase_image f hnext]
      exact howes _ _ howes'
  | tick _ htick hG ih => exact ih.tick htick hG

theorem Monitor.phase_both (i : ι) (log : List (Entry S σ ι)) :
    (M.both N).phase (m₀, n₀) i log = (M.phase m₀ i log, N.phase n₀ i log) := by
  induction log with
  | nil => rfl
  | cons entry log ih =>
      rw [phase, phase, phase, ih]
      split <;> rfl

/-- Threads that keep two protocols keep the first. -/
theorem Machine.Lawful.first (h : m.Lawful (M.both N) (m₀, n₀) G s₀ s log) :
    m.Lawful M m₀ G s₀ s log := by
  induction h with
  | init => exact .init
  | call _ howes hact hG ih =>
      rw [Monitor.phase_both] at howes
      exact ih.call howes.1 hact hG
  | tick _ htick hG ih => exact ih.tick htick hG

end Both

/-- What was the case at an entry of the log. -/
theorem Machine.Lawful.split {later past : List (Entry S σ ι)} {entry : Entry S σ ι}
    (h : m.Lawful M m₀ G s₀ s (later ++ entry :: past)) :
    m.Lawful M m₀ G s₀ entry.before past ∧ M.owes (M.phase m₀ entry.thread past) entry.event.call ∧
      ∃ s', m.act entry.before entry.event.call entry.event.reply s' ∧ G s' (entry :: past) := by
  generalize hlog : later ++ entry :: past = log at h
  induction h generalizing later with
  | init => simp at hlog
  | tick _ _ _ ih => exact ih hlog
  | @call s s' log i e r h howes hact hG ih =>
      cases later with
      | nil =>
          obtain ⟨rfl, rfl⟩ := List.cons.inj hlog
          exact ⟨h, howes, s', hact, hG⟩
      | cons entry' later => exact ih (List.cons.inj hlog).2

/-! ## The calls of one thread -/

/-- What the calls of thread `i` were replied, the first first. -/
def own (i : ι) : List (Entry S σ ι) → List (Event S)
  | [] => []
  | entry :: log => if entry.thread = i then own i log ++ [entry.event] else own i log

theorem own_append (i : ι) (later past : List (Entry S σ ι)) :
    own i (later ++ past) = own i past ++ own i later := by
  induction later with
  | nil => exact (List.append_nil _).symm
  | cons entry later ih =>
      rw [List.cons_append, own, own, ih]
      split
      · exact List.append_assoc _ _ _
      · rfl

theorem own_cons_self (entry : Entry S σ ι) (log : List (Entry S σ ι)) :
    own entry.thread (entry :: log) = own entry.thread log ++ [entry.event] := if_pos rfl

theorem mem_own {i : ι} {event : Event S} :
    event ∈ own i log ↔ ∃ entry ∈ log, entry.thread = i ∧ entry.event = event := by
  induction log with
  | nil => simp [own]
  | cons entry log ih =>
      rw [own]
      split
      · rename_i hi
        rw [List.mem_append, List.mem_singleton, ih]
        constructor
        · rintro (⟨entry', hmem, hentry⟩ | rfl)
          · exact ⟨entry', List.mem_cons_of_mem _ hmem, hentry⟩
          · exact ⟨entry, List.mem_cons_self, hi, rfl⟩
        · rintro ⟨entry', hmem, hentry⟩
          rcases List.mem_cons.mp hmem with rfl | hmem
          · exact Or.inr hentry.2.symm
          · exact Or.inl ⟨entry', hmem, hentry⟩
      · rename_i hi
        rw [ih]
        constructor
        · rintro ⟨entry', hmem, hentry⟩
          exact ⟨entry', List.mem_cons_of_mem _ hmem, hentry⟩
        · rintro ⟨entry', hmem, hentry⟩
          rcases List.mem_cons.mp hmem with rfl | hmem
          · exact absurd hentry.1 hi
          · exact ⟨entry', hmem, hentry⟩

/-- The event of a thread that has none in the past stands in what came later. -/
theorem later_of_own {i : ι} {later past : List (Entry S σ ι)} {event : Event S}
    (hown : own i (later ++ past) = [event]) (hnone : own i past = []) :
    ∃ after entry between, later ++ past = after ++ entry :: (between ++ past) ∧
      entry.thread = i ∧ entry.event = event := by
  rw [own_append, hnone, List.nil_append] at hown
  have hmem : event ∈ own i later := by
    rw [hown]
    exact List.mem_singleton.mpr rfl
  obtain ⟨entry, hentry, hthread, hevent⟩ := mem_own.mp hmem
  obtain ⟨after, between, rfl⟩ := List.append_of_mem hentry
  exact ⟨after, entry, between, by rw [List.append_assoc, List.cons_append], hthread, hevent⟩

/-- The calls of a thread after an entry, if its event is not among the last ones. -/
theorem own_after {i : ι} {later past : List (Entry S σ ι)} {entry : Entry S σ ι}
    {first rest : List (Event S)}
    (hown : own i (later ++ entry :: past) = first ++ rest) (hthread : entry.thread = i)
    (hrest : entry.event ∉ rest) :
    ∃ between, first = own i past ++ entry.event :: between ∧ own i later = between ++ rest := by
  subst hthread
  rw [own_append, own_cons_self, List.append_assoc, List.singleton_append] at hown
  rcases List.append_eq_append_iff.mp hown with ⟨between, hfirst, hsplit⟩ | ⟨between, hpast, hsplit⟩
  · cases between with
    | nil =>
        rw [List.nil_append] at hsplit
        exact absurd (hsplit ▸ List.mem_cons_self) hrest
    | cons event between =>
        obtain ⟨rfl, hlater⟩ := List.cons.inj hsplit
        exact ⟨between, hfirst, hlater⟩
  · exact absurd (hsplit ▸ List.mem_append_right _ List.mem_cons_self) hrest

theorem Monitor.after_append (s : φ) (tr tr' : List (Event S)) :
    M.after s (tr ++ tr') = M.after (M.after s tr) tr' := by
  induction tr generalizing s with
  | nil => rfl
  | cons event tr ih => exact ih _

/-- The phase of a thread is what its own calls have made of it. -/
theorem Monitor.phase_eq_after (i : ι) (log : List (Entry S σ ι)) :
    M.phase m₀ i log = M.after m₀ (own i log) := by
  induction log with
  | nil => rfl
  | cons entry log ih =>
      rw [Monitor.phase, own]
      split
      · rw [ih, Monitor.after_append]
        rfl
      · exact ih

/-- What was the case after the first calls of a thread. -/
theorem Machine.Lawful.past {i : ι} {first rest : List (Event S)} (h : m.Lawful M m₀ G s₀ s log)
    (hown : own i log = first ++ rest) : ∃ later past s', log = later ++ past ∧ own i past = first ∧
      own i later = rest ∧ m.Lawful M m₀ G s₀ s' past := by
  induction h generalizing rest with
  | init =>
      obtain ⟨rfl, rfl⟩ := List.append_eq_nil_iff.mp hown.symm
      exact ⟨[], [], s₀, rfl, rfl, rfl, .init⟩
  | tick _ _ _ ih => exact ih hown
  | @call s s' log j e r h howes hact hG ih =>
      by_cases hj : j = i
      · rw [own, if_pos hj] at hown
        rcases List.eq_nil_or_concat rest with rfl | ⟨rest, event, rfl⟩
        · refine ⟨[], _, s', rfl, ?_, rfl, h.call howes hact hG⟩
          rw [own, if_pos hj, hown, List.append_nil]
        · rw [List.concat_eq_append, ← List.append_assoc] at hown
          obtain ⟨hown, hevent⟩ := List.append_inj' hown rfl
          obtain ⟨later, past, s'', rfl, hpast, hlater, hlawful⟩ := ih hown
          refine ⟨_ :: later, past, s'', rfl, hpast, ?_, hlawful⟩
          rw [own, if_pos hj, hlater, hevent, List.concat_eq_append]
      · rw [own, if_neg hj] at hown
        obtain ⟨later, past, s'', rfl, hpast, hlater, hlawful⟩ := ih hown
        refine ⟨_ :: later, past, s'', rfl, hpast, ?_, hlawful⟩
        rw [own, if_neg hj, hlater]

/-- **The log of a thread is a partial run of its program.** -/
theorem Machine.Reachable.steps {c₀ c : Config S σ ι α} (hlog : c₀.log = [])
    (h : m.Reachable G c₀ c) (i : ι) :
    Steps (c₀.threads i) (own i c.log) (c.threads i) := by
  induction h with
  | refl =>
      rw [hlog]
      exact Steps.refl _
  | @step c c' _ hstep _ ih =>
      cases hstep with
      | tick => exact ih
      | @call j e k r s' hthread hact =>
          by_cases hj : j = i
          · subst hj
            rw [own, if_pos rfl]
            dsimp only
            rw [Function.update_self]
            rw [hthread] at ih
            exact ih.append (Steps.call (Steps.refl _))
          · rw [own, if_neg hj]
            dsimp only
            rw [Function.update_of_ne (Ne.symm hj)]
            exact ih

/-! ## One thread at a time -/

/-- Thread `i` can run to its end against a handler whose answers the machine allows. -/
theorem Machine.Reachable.exec {τ : Type} {h : Handler S τ} (view : τ → σ)
    (hact : ∀ e t, m.act (view t) e (h e t).1 (view (h e t).2)) {c₀ c : Config S σ ι α}
    (hreach : m.Reachable (fun _ _ => True) c₀ c) (i : ι) {t : τ} (hview : c.shared = view t) :
    ∃ log, m.Reachable (fun _ _ => True) c₀
      { shared := view (Effects.exec h (c.threads i) t).2
        threads := Function.update c.threads i (ofExcept (Effects.exec h (c.threads i) t).1)
        log := log ++ c.log } := by
  obtain ⟨shared, threads, log⟩ := c
  dsimp only at hview ⊢
  subst hview
  generalize hp : threads i = p
  induction p generalizing t threads log with
  | ret a =>
      refine ⟨[], ?_⟩
      have hsame : Function.update threads i (ofExcept (Effects.exec h (ret a) t).1) = threads := by
        rw [exec_ret]
        exact (Function.update_eq_self_iff).mpr hp.symm
      rw [hsame]
      exact hreach
  | raise x =>
      refine ⟨[], ?_⟩
      have hsame : Function.update threads i (ofExcept (Effects.exec h (raise x) t).1) =
          threads := by
        rw [exec_raise]
        exact (Function.update_eq_self_iff).mpr hp.symm
      rw [hsame]
      exact hreach
  | call e k ih =>
      have hnext := hreach.step (Machine.Step.call hp (hact e t)) trivial
      obtain ⟨log', hlog'⟩ := ih _ _ _ hnext (Function.update_self ..)
      rw [Function.update_idem] at hlog'
      exact ⟨log' ++ [⟨i, view t, ⟨e, (h e t).1⟩⟩], by rw [List.append_assoc]; exact hlog'⟩

/-! ## One program -/

/-- The machine makes the replies, one after the other. -/
inductive Machine.Serves (m : Machine S σ) : σ → List (Event S) → σ → Prop
  | nil {s : σ} : Serves m s [] s
  | cons {s s' s'' : σ} {event : Event S} {tr : List (Event S)}
      (hact : m.act s event.call event.reply s')
      (h : Serves m s' tr s'') : Serves m s (event :: tr) s''

/-- A handler whose answers the machine allows serves a program to its end. -/
theorem Machine.Serves.exec {τ : Type} {h : Handler S τ} (view : τ → σ)
    (hact : ∀ e t, m.act (view t) e (h e t).1 (view (h e t).2)) (p : Prog S α) (t : τ) :
    m.Serves (view t) (Effects.trace h p t) (view (Effects.exec h p t).2) := by
  induction p generalizing t with
  | ret a => exact .nil
  | raise x => exact .nil
  | call e k ih => exact .cons (hact e t) (ih _ _)

/-! ## Schedules -/

/-- A thread makes its next call, or time passes. -/
inductive Move (ι : Type) where
  | call (i : ι)
  | wait (duration : Nat)

def Config.move (h : Handler S σ) (advance : Nat → σ → σ) (c : Config S σ ι α) :
    Move ι → Config S σ ι α
  | .call i => match c.threads i with
    | .call e k =>
      { shared := (h e c.shared).2
        threads := Function.update c.threads i (k (h e c.shared).1)
        log := ⟨i, c.shared, ⟨e, (h e c.shared).1⟩⟩ :: c.log }
    | _ => c
  | .wait duration => { c with shared := advance duration c.shared }

def Config.play (h : Handler S σ) (advance : Nat → σ → σ) (c : Config S σ ι α) :
    List (Move ι) → Config S σ ι α
  | [] => c
  | move :: moves => (c.move h advance move).play h advance moves

theorem Config.move_call {h : Handler S σ} {advance : Nat → σ → σ} {c : Config S σ ι α} {i : ι}
    {e : S.Call} {k : S.Reply e → Prog S α} (hthread : c.threads i = .call e k) :
    (c.move h advance (.call i)).threads i = k (h e c.shared).1 := by
  unfold Config.move
  dsimp only
  rw [hthread]
  exact Function.update_self ..

/-- A thread that does not move stays where it is. -/
theorem Config.play_threads_of_ne {h : Handler S σ} {advance : Nat → σ → σ}
    {c : Config S σ ι α} {i : ι} {moves : List (Move ι)} (hmoves : ∀ move ∈ moves, move ≠ .call i) :
    (c.play h advance moves).threads i = c.threads i := by
  induction moves generalizing c with
  | nil => rfl
  | cons move moves ih =>
      refine (ih fun move' hmove' => hmoves move' (List.mem_cons_of_mem _ hmove')).trans ?_
      cases move with
      | wait duration => rfl
      | call j =>
          unfold Config.move
          dsimp only
          split
          · exact Function.update_of_ne (fun heq =>
              hmoves _ List.mem_cons_self (congrArg Move.call heq.symm)) ..
          · rfl

/-- The condition `G` holds after every move of the schedule. -/
def Config.PlayKeeps (h : Handler S σ) (advance : Nat → σ → σ) (G : σ → List (Entry S σ ι) → Prop)
    (c : Config S σ ι α) : List (Move ι) → Prop
  | [] => True
  | move :: moves =>
    G (c.move h advance move).shared (c.move h advance move).log ∧
    (c.move h advance move).PlayKeeps h advance G moves

instance Config.decidablePlayKeeps (h : Handler S σ) (advance : Nat → σ → σ)
    (G : σ → List (Entry S σ ι) → Prop)
    [∀ s log, Decidable (G s log)] (c : Config S σ ι α) (moves : List (Move ι)) :
    Decidable (c.PlayKeeps h advance G moves) :=
  match moves with
  | [] => isTrue trivial
  | move :: moves =>
    have : Decidable ((c.move h advance move).PlayKeeps h advance G moves) :=
      decidablePlayKeeps h advance G (c.move h advance move) moves
    inferInstanceAs (Decidable (_ ∧ _))

theorem Config.playKeeps_true (h : Handler S σ) (advance : Nat → σ → σ) (c : Config S σ ι α)
    (moves : List (Move ι)) :
    c.PlayKeeps h advance (fun _ _ => True) moves := by
  induction moves generalizing c with
  | nil => trivial
  | cons move moves ih => exact ⟨trivial, ih _⟩

section Schedules

variable {h : Handler S σ} {advance : Nat → σ → σ} (hact : ∀ e s, m.act s e (h e s).1 (h e s).2)
  (htick : ∀ duration s, m.tick s (advance duration s))
include hact htick

/-- Where a schedule leads is reachable. -/
theorem Machine.Reachable.play {c₀ c : Config S σ ι α} (hreach : m.Reachable G c₀ c)
    (moves : List (Move ι))
    (hkeeps : c.PlayKeeps h advance G moves) : m.Reachable G c₀ (c.play h advance moves) := by
  induction moves generalizing c with
  | nil => exact hreach
  | cons move moves ih =>
      obtain ⟨hG, hkeeps⟩ := hkeeps
      refine ih ?_ hkeeps
      cases move with
      | wait duration => exact hreach.step (Machine.Step.tick (htick duration c.shared)) hG
      | call i =>
          unfold Config.move at hG ⊢
          dsimp only at hG ⊢
          split at hG
          · rename_i e k hthread
            exact hreach.step (Machine.Step.call hthread (hact e c.shared)) hG
          · exact hreach

end Schedules

end Effects
