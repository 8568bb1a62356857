import ModelRouter.Lib.Prog
import Mathlib.Data.List.Forall2

/-!
# Two programs side by side

A `Coupling` says which calls look the same to an observer, and when two of them with their replies
do. Two programs are coupled if they make calls that look the same as long as their replies do.

* `Coupled.bind`, `Coupled.same` : the rules;
* `Coupled.run` : two runs that are answered alike look the same, call by call;
* `Coupled.exec` : against two handlers that answer alike, the calls look the same and the states
  stay related.
-/

namespace Effects
open Prog

/-- `alike` relates calls with their replies. -/
structure Coupling (S : Sig) where
  calls : S.Call → S.Call → Prop
  alike : Event S → Event S → Prop

variable {S : Sig} {α α' β β' : Type} {C : Coupling S}

/-- The programs end with related values, or with the same exception. -/
inductive Coupled (C : Coupling S) (R : α → α' → Prop) : Prog S α → Prog S α' → Prop
  | ret {a : α} {a' : α'} (h : R a a') : Coupled C R (.ret a) (.ret a')
  | raise (x : S.Exc) : Coupled C R (.raise x) (.raise x)
  | call {e e' : S.Call} {k : S.Reply e → Prog S α} {k' : S.Reply e' → Prog S α'}
      (hcalls : C.calls e e') (h : ∀ r r', C.alike ⟨e, r⟩ ⟨e', r'⟩ → Coupled C R (k r) (k' r')) :
        Coupled C R (.call e k) (.call e' k')

/-- The rule of sequencing. -/
theorem Coupled.bind {R : α → α' → Prop} {Q : β → β' → Prop} {p : Prog S α} {p' : Prog S α'}
    {f : α → Prog S β}
    {f' : α' → Prog S β'} (h : Coupled C R p p') (hf : ∀ a a', R a a' → Coupled C Q (f a) (f' a')) :
    Coupled C Q (p >>= f) (p' >>= f') := by
  induction h with
  | ret h => exact hf _ _ h
  | raise x => exact .raise x
  | call hcalls _ ih => exact .call hcalls fun r r' halike => ih r r' halike

/-- The call looks like itself only when its replies are the same. -/
def Coupling.Plain (C : Coupling S) (e : S.Call) : Prop :=
  C.calls e e ∧ ∀ r r', C.alike ⟨e, r⟩ ⟨e, r'⟩ → r = r'

/-- A program of such calls is coupled with itself. -/
theorem Coupled.same {P : S.Call → Prop} {p : Prog S α} (h : Only P p) (hP : ∀ e, P e → C.Plain e) :
    Coupled C (· = ·) p p := by
  induction p with
  | ret a => exact .ret rfl
  | raise x => exact .raise x
  | call e k ih =>
      obtain ⟨hcalls, hreplies⟩ := hP e h.1
      refine .call hcalls fun r r' halike => ?_
      rw [← hreplies r r' halike]
      exact ih r (h.2 r)

/-! ## Two runs -/

/-- Where the calls look the same, their replies do. -/
def Coupling.Answered (C : Coupling S) : List (Event S) → List (Event S) → Prop
  | ev :: tr, ev' :: tr' => (C.calls ev.call ev'.call → C.alike ev ev') ∧ C.Answered tr tr'
  | _, _ => True

/-- **Two runs that are answered alike look the same.** -/
theorem Coupled.run {R : α → α' → Prop} {p : Prog S α} {p' : Prog S α'} {tr tr' : List (Event S)}
    {out : Except S.Exc α} {out' : Except S.Exc α'} (h : Coupled C R p p') (hrun : Run p tr out)
    (hrun' : Run p' tr' out') (hanswered : C.Answered tr tr') : List.Forall₂ C.alike tr tr' := by
  induction h generalizing tr tr' with
  | ret =>
      obtain ⟨rfl, -⟩ := (run_ret_iff _ _ _).mp hrun
      obtain ⟨rfl, -⟩ := (run_ret_iff _ _ _).mp hrun'
      exact .nil
  | raise =>
      obtain ⟨rfl, -⟩ := (run_raise_iff _ _ _).mp hrun
      obtain ⟨rfl, -⟩ := (run_raise_iff _ _ _).mp hrun'
      exact .nil
  | call hcalls _ ih =>
      obtain ⟨r, rest, rfl, hrest⟩ := (run_call_iff _ _ _ _).mp hrun
      obtain ⟨r', rest', rfl, hrest'⟩ := (run_call_iff _ _ _ _).mp hrun'
      obtain ⟨halike, hanswered⟩ := hanswered
      exact .cons (halike hcalls) (ih r r' (halike hcalls) hrest hrest' hanswered)

theorem Coupling.answered_of_alike {tr tr' : List (Event S)} (h : List.Forall₂ C.alike tr tr') :
    C.Answered tr tr' := by
  induction h with
  | nil => trivial
  | cons halike _ ih => exact ⟨fun _ => halike, ih⟩

/-- **Against handlers that answer alike, the calls look the same and the states stay related.** -/
theorem Coupled.exec {σ τ : Type} {R : α → α' → Prop} {T : σ → τ → Prop} {h : Handler S σ}
    {h' : Handler S τ}
    (hanswers : ∀ e e' s t, C.calls e e' → T s t → C.alike ⟨e, (h e s).1⟩ ⟨e', (h' e' t).1⟩ ∧
      T (h e s).2 (h' e' t).2)
    {p : Prog S α} {p' : Prog S α'} (hcoupled : Coupled C R p p') {s : σ} {t : τ} (hT : T s t) :
    List.Forall₂ C.alike (trace h p s) (trace h' p' t) ∧
    T (Effects.exec h p s).2 (Effects.exec h' p' t).2 := by
  induction hcoupled generalizing s t with
  | ret => exact ⟨.nil, hT⟩
  | raise => exact ⟨.nil, hT⟩
  | call hcalls _ ih =>
      obtain ⟨halike, hnext⟩ := hanswers _ _ s t hcalls hT
      obtain ⟨hrest, hend⟩ := ih _ _ halike hnext
      exact ⟨.cons halike hrest, hend⟩

end Effects
