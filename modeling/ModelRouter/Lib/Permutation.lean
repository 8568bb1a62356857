import Mathlib.Data.List.MinMax
import Mathlib.Data.List.Perm.Basic

/-!
# Lists up to their order

What a search finds does not depend on the order of the list where the key determines the element:
`find?_eq`, `argmin_eq`. A computation over the elements comes to the same results up to order, or
fails in either order (`mapM_cases`).
-/

namespace Permutation

variable {α β ε : Type} {l l' : List α}

theorem find?_eq {p : α → Bool} (h : l.Perm l')
    (hp : ∀ a ∈ l, ∀ b ∈ l, p a = true → p b = true → a = b) :
    l.find? p = l'.find? p := by
  cases hl : l.find? p with
  | none =>
      symm
      rw [List.find?_eq_none] at hl ⊢
      exact fun a ha => hl a (h.mem_iff.mpr ha)
  | some a =>
      have ha := List.mem_of_find?_eq_some hl
      cases hl' : l'.find? p with
      | none => exact absurd (List.find?_some hl) (List.find?_eq_none.mp hl' a (h.mem_iff.mp ha))
      | some b =>
          have hb := h.mem_iff.mpr (List.mem_of_find?_eq_some hl')
          rw [hp a ha b hb (List.find?_some hl) (List.find?_some hl')]

theorem argmin_eq [LinearOrder β] {f : α → β} (h : l.Perm l')
    (hf : ∀ a ∈ l, ∀ b ∈ l, f a = f b → a = b) :
    l.argmin f = l'.argmin f := by
  cases hl : l.argmin f with
  | none =>
      rw [List.argmin_eq_none] at hl
      rw [hl] at h
      simp [h.nil_eq.symm]
  | some a =>
      have ha := List.argmin_mem hl
      cases hl' : l'.argmin f with
      | none =>
          rw [List.argmin_eq_none] at hl'
          simp [hl', h.mem_iff] at ha
      | some b =>
          have hb := h.mem_iff.mpr (List.argmin_mem hl')
          have hab : f a ≤ f b := List.le_of_mem_argmin hb hl
          have hba : f b ≤ f a := List.le_of_mem_argmin (h.mem_iff.mp ha) hl'
          rw [hf a ha b hb (le_antisymm hab hba)]

/-- The outcomes of one computation over two lists. -/
def Alike (o o' : Except ε (List β)) : Prop :=
  (∃ results results', o = .ok results ∧ o' = .ok results' ∧ results.Perm results') ∨
    ((∃ x, o = .error x) ∧ ∃ x, o' = .error x)

theorem Alike.cons {o o' : Except ε (List β)} (h : Alike o o') (b : β) :
    Alike (o.map (b :: ·)) (o'.map (b :: ·)) := by
  obtain ⟨results, results', rfl, rfl, hperm⟩ | ⟨⟨x, rfl⟩, y, rfl⟩ := h
  · exact .inl ⟨b :: results, b :: results', rfl, rfl, hperm.cons b⟩
  · exact .inr ⟨⟨x, rfl⟩, y, rfl⟩

theorem Alike.trans {o₁ o₂ o₃ : Except ε (List β)} (h : Alike o₁ o₂) (h' : Alike o₂ o₃) :
    Alike o₁ o₃ := by
  obtain ⟨results, results', rfl, rfl, hperm⟩ | ⟨hx, y, rfl⟩ := h
  · obtain ⟨same, results'', hsame, rfl, hperm'⟩ | ⟨⟨x, hx⟩, -⟩ := h'
    · obtain rfl := Except.ok.inj hsame
      exact .inl ⟨results, results'', rfl, rfl, hperm.trans hperm'⟩
    · simp at hx
  · obtain ⟨same, -, hsame, -⟩ | ⟨-, hz⟩ := h'
    · simp at hsame
    · exact .inr ⟨hx, hz⟩

theorem mapM_cons_map (f : α → Except ε β) (a : α) (l : List α) :
    (a :: l).mapM f = match f a with
      | .error x => .error x
      | .ok b => (l.mapM f).map (b :: ·) := by
  rw [List.mapM_cons]
  cases f a with
  | error x => rfl
  | ok b => cases l.mapM f <;> rfl

/-- A result is that of an element. -/
theorem mem_mapM {f : α → Except ε β} {results : List β} {b : β} (h : l.mapM f = .ok results)
    (hb : b ∈ results) :
    ∃ a ∈ l, f a = .ok b := by
  induction l generalizing results with
  | nil =>
      obtain rfl := Except.ok.inj h
      simp at hb
  | cons a l ih =>
      rw [mapM_cons_map] at h
      cases ha : f a with
      | error x => simp [ha] at h
      | ok c =>
          cases hrest : l.mapM f with
          | error x => simp [ha, hrest, Except.map] at h
          | ok rest =>
              rw [ha, hrest] at h
              obtain rfl := Except.ok.inj h
              rcases List.mem_cons.mp hb with rfl | hb
              · exact ⟨a, List.mem_cons_self, ha⟩
              · obtain ⟨a', ha', hresult⟩ := ih hrest hb
                exact ⟨a', List.mem_cons_of_mem _ ha', hresult⟩

/-- **A computation over the elements does not depend on their order.** -/
theorem mapM_cases (f : α → Except ε β) (h : l.Perm l') : Alike (l.mapM f) (l'.mapM f) := by
  induction h with
  | nil => exact .inl ⟨[], [], rfl, rfl, .nil⟩
  | cons a _ ih =>
      rw [mapM_cons_map, mapM_cons_map]
      cases f a with
      | error x => exact .inr ⟨⟨x, rfl⟩, x, rfl⟩
      | ok b => exact ih.cons b
  | swap a b l =>
      simp only [mapM_cons_map]
      cases f a with
      | error x =>
          cases f b with
          | error y => exact .inr ⟨⟨y, rfl⟩, x, rfl⟩
          | ok c => exact .inr ⟨⟨x, rfl⟩, x, rfl⟩
      | ok b' =>
          cases f b with
          | error y => exact .inr ⟨⟨y, rfl⟩, y, rfl⟩
          | ok c =>
              cases l.mapM f with
              | error x => exact .inr ⟨⟨x, rfl⟩, x, rfl⟩
              | ok results =>
                  exact .inl ⟨c :: b' :: results, b' :: c :: results, rfl, rfl, .swap b' c results⟩
  | trans _ _ ih ih' => exact ih.trans ih'

end Permutation
