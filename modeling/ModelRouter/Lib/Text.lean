import Mathlib.Data.List.Basic

/-!
# Texts read from the left

Where a part of a text ends is found in the text: after the longest run of characters of one kind
(`append_cancel`), or before it (`append_cancel_right`). `toDigits_cancel` : the digits of a number,
with no digit after them, give the number.
-/

namespace Text

/-- A run of characters with the property, that something else follows. -/
theorem append_cancel {α : Type} {p : α → Prop} {l l' r r' : List α} (hl : ∀ a ∈ l, p a)
    (hl' : ∀ a ∈ l', p a)
    (hr : ∀ a ∈ r.head?, ¬ p a) (hr' : ∀ a ∈ r'.head?, ¬ p a) (h : l ++ r = l' ++ r') : l = l' ∧
      r = r' := by
  induction l generalizing l' with
  | nil =>
      cases l' with
      | nil => exact ⟨rfl, h⟩
      | cons a l' =>
          rw [List.nil_append] at h
          subst h
          exact absurd (hl' a List.mem_cons_self) (hr a rfl)
  | cons a l ih =>
      cases l' with
      | nil =>
          rw [List.nil_append] at h
          subst h
          exact absurd (hl a List.mem_cons_self) (hr' a rfl)
      | cons a' l' =>
          obtain ⟨rfl, hrest⟩ := List.cons.inj h
          obtain ⟨rfl, hr⟩ := ih (fun b hb => hl b (List.mem_cons_of_mem _ hb))
            (fun b hb => hl' b (List.mem_cons_of_mem _ hb)) hrest
          exact ⟨rfl, hr⟩

/-- The same from the right. -/
theorem append_cancel_right {α : Type} {p : α → Prop} {l l' r r' : List α} (hr : ∀ a ∈ r, p a)
    (hr' : ∀ a ∈ r', p a)
    (hl : ∀ a ∈ l.getLast?, ¬ p a) (hl' : ∀ a ∈ l'.getLast?, ¬ p a) (h : l ++ r = l' ++ r') :
      l = l' ∧ r = r' := by
  have hreversed : r.reverse ++ l.reverse = r'.reverse ++ l'.reverse := by
    rw [← List.reverse_append, ← List.reverse_append, h]
  obtain ⟨hright, hleft⟩ := append_cancel (fun a ha => hr a (List.mem_reverse.mp ha))
    (fun a ha => hr' a (List.mem_reverse.mp ha)) (by simpa using hl) (by simpa using hl') hreversed
  exact ⟨List.reverse_injective hleft, List.reverse_injective hright⟩

/-- No digit follows. -/
def NoDigit (r : List Char) : Prop := ∀ c ∈ r.head?, ¬ c.isDigit

theorem toDigits_cancel {n n' : Nat} {r r' : List Char} (hr : NoDigit r) (hr' : NoDigit r')
    (h : Nat.toDigits 10 n ++ r = Nat.toDigits 10 n' ++ r') : n = n' ∧ r = r' := by
  have hdigits : ∀ n, ∀ c ∈ Nat.toDigits 10 n, c.isDigit :=
    fun n c hc => Nat.isDigit_of_mem_toDigits (by decide) (by decide) hc
  obtain ⟨htext, hrest⟩ := append_cancel (hdigits n) (hdigits n') hr hr' h
  have hvalue := congrArg (fun text => Nat.ofDigitChars 10 text 0) htext
  simp only [Nat.ofDigitChars_ten_toDigits] at hvalue
  exact ⟨hvalue, hrest⟩

end Text
