import Mathlib.Data.List.Basic

/-!
# Texts joined by a delimiter

Two sequences of texts that are joined by a delimiter may give one text where the texts have the
delimiter in them: `Overlap` says how, and `intercalate_cons_eq_iff` that there is no other way.
-/

namespace Delimited

variable {α : Type} {d : α} {a a' : List α} {rest rest' : List (List α)}

/-- What follows the first text, in the joined one. -/
def tail (d : α) (rest : List (List α)) : List α :=
  if rest = [] then [] else d :: [d].intercalate rest

theorem intercalate_cons (a : List α) (rest : List (List α)) :
    [d].intercalate (a :: rest) = a ++ tail d rest := by
  unfold tail
  split
  · rename_i hnil
    rw [hnil, List.intercalate_singleton, List.append_nil]
  · rename_i hne
    rw [List.intercalate_cons_of_ne_nil hne, List.append_assoc]
    rfl

/-- The first text of the other sequence is `a` with the delimiter and more, which `rest` begins
with. -/
def Overlap (d : α) (a : List α) (rest : List (List α)) (a' : List α) (rest' : List (List α)) :
    Prop :=
  rest ≠ [] ∧ ∃ s, a' = a ++ d :: s ∧ [d].intercalate rest = [d].intercalate (s :: rest')

theorem Overlap.mem (h : Overlap d a rest a' rest') : d ∈ a' := by
  obtain ⟨-, s, rfl, -⟩ := h
  simp

theorem Overlap.ne (h : Overlap d a rest a' rest') : a ≠ a' := by
  obtain ⟨-, s, rfl, -⟩ := h
  intro heq
  have hlength := congrArg List.length heq
  simp at hlength

theorem Overlap.intercalate_eq (h : Overlap d a rest a' rest') :
    [d].intercalate (a :: rest) = [d].intercalate (a' :: rest') := by
  obtain ⟨hne, s, rfl, hrest⟩ := h
  rw [intercalate_cons] at hrest
  rw [intercalate_cons, intercalate_cons, tail, if_neg hne, hrest]
  simp

theorem tail_eq_iff : tail d rest = tail d rest' ↔
    (rest = [] ↔ rest' = []) ∧ [d].intercalate rest = [d].intercalate rest' := by
  unfold tail
  by_cases hnil : rest = [] <;> by_cases hnil' : rest' = [] <;> simp [hnil, hnil']

theorem overlap_of_append {u : List α} (hne : u ≠ []) (ha : a' = a ++ u)
    (htail : tail d rest = u ++ tail d rest') :
    Overlap d a rest a' rest' := by
  obtain ⟨c, s, rfl⟩ := List.exists_cons_of_ne_nil hne
  unfold tail at htail
  split at htail
  · cases htail
  · rename_i hrest
    obtain ⟨rfl, hjoined⟩ := List.cons.inj htail
    refine ⟨hrest, s, ha, ?_⟩
    rw [hjoined, intercalate_cons]
    rfl

/-- **When two joined texts are equal**: the sequences are, or their first texts overlap. -/
theorem intercalate_cons_eq_iff : [d].intercalate (a :: rest) = [d].intercalate (a' :: rest') ↔
    (a = a' ∧ (rest = [] ↔ rest' = []) ∧ [d].intercalate rest = [d].intercalate rest') ∨
      Overlap d a rest a' rest' ∨ Overlap d a' rest' a rest := by
  constructor
  · intro h
    rw [intercalate_cons, intercalate_cons] at h
    rcases List.append_eq_append_iff.mp h with ⟨u, ha, htail⟩ | ⟨u, ha, htail⟩
    · by_cases hu : u = []
      · subst hu
        rw [List.append_nil] at ha
        exact Or.inl ⟨ha.symm, tail_eq_iff.mp htail⟩
      · exact Or.inr (Or.inl (overlap_of_append hu ha htail))
    · by_cases hu : u = []
      · subst hu
        rw [List.append_nil] at ha
        exact Or.inl ⟨ha, tail_eq_iff.mp htail.symm⟩
      · exact Or.inr (Or.inr (overlap_of_append hu ha htail))
  · rintro (⟨rfl, hrest⟩ | hoverlap | hoverlap)
    · rw [intercalate_cons, intercalate_cons, tail_eq_iff.mpr hrest]
    · exact hoverlap.intercalate_eq
    · exact hoverlap.intercalate_eq.symm

end Delimited
