import ModelRouter.Lib.Decimal
import ModelRouter.Lib.Text

/-!
# The text of a decimal

`Decimal.str` : the scientific string of the General Decimal Arithmetic, which gives the sign, the
coefficient and the exponent back (`str_injective`): the digits are the coefficient, and the point
and the `E` the exponent (`Mantissa.Shows`).
-/

namespace Arith.Decimal
open Text

/-- The digits before and after the point, and the exponent that is written. -/
structure Mantissa where
  whole : List Char
  fraction : List Char
  exponent : Int

/-- Without an exponent where the decimal is not too small, else with one digit before the point. -/
def mantissa (d : Decimal) : Mantissa :=
  let digits := Nat.toDigits 10 d.coefficient
  let leftDigits : Int := d.exponent + digits.length
  let dotPlace : Int := if d.exponent ≤ 0 ∧ -6 < leftDigits then leftDigits else 1
  if dotPlace ≤ 0 then
    { whole := ['0'], fraction := List.replicate (-dotPlace).toNat '0' ++ digits,
      exponent := leftDigits - dotPlace }
  else if (digits.length : Int) ≤ dotPlace then
    { whole := digits ++ List.replicate (dotPlace - digits.length).toNat '0', fraction := [],
      exponent := leftDigits - dotPlace }
  else
    { whole := digits.take dotPlace.toNat, fraction := digits.drop dotPlace.toNat,
      exponent := leftDigits - dotPlace }

/-- `"%+d"`. -/
def signedText (e : Int) : List Char := (if e < 0 then '-' else '+') :: Nat.toDigits 10 e.natAbs

def fractionText (fraction : List Char) : List Char := if fraction = [] then [] else '.' :: fraction

def exponentText (e : Int) : List Char := if e = 0 then [] else 'E' :: signedText e

/-- `str(decimal)`. -/
def str (d : Decimal) : String :=
  String.ofList ((if d.negative then ['-'] else []) ++
    (d.mantissa.whole ++ (fractionText d.mantissa.fraction ++ exponentText d.mantissa.exponent)))

/-- The parts of a text that stands for the decimal. -/
structure Mantissa.Shows (m : Mantissa) (d : Decimal) : Prop where
  whole_ne : m.whole ≠ []
  whole : ∀ c ∈ m.whole, c.isDigit
  fraction : ∀ c ∈ m.fraction, c.isDigit
  coefficient : Nat.ofDigitChars 10 (m.whole ++ m.fraction) 0 = d.coefficient
  exponent : d.exponent = m.exponent - m.fraction.length

theorem mantissa_shows (d : Decimal) : d.mantissa.Shows d := by
  unfold mantissa
  dsimp only
  have hne : Nat.toDigits 10 d.coefficient ≠ [] := Nat.toDigits_ne_nil
  have hdigits : ∀ c ∈ Nat.toDigits 10 d.coefficient, c.isDigit :=
    fun c hc => Nat.isDigit_of_mem_toDigits (by decide) (by decide) hc
  have hvalue : Nat.ofDigitChars 10 (Nat.toDigits 10 d.coefficient) 0 = d.coefficient :=
    Nat.ofDigitChars_ten_toDigits
  have hlength : 0 < (Nat.toDigits 10 d.coefficient).length := List.length_pos_iff.mpr hne
  generalize Nat.toDigits 10 d.coefficient = digits at hne hdigits hvalue hlength ⊢
  generalize hdot : (if d.exponent ≤ 0 ∧ -6 < d.exponent + digits.length
    then d.exponent + digits.length
    else 1 : Int) = dotPlace
  have hplace : dotPlace = d.exponent + digits.length ∧ d.exponent ≤ 0 ∨ dotPlace = 1 := by
    split at hdot <;> omega
  split
  · -- zeros stand before the digits
    rename_i hsmall
    constructor
    · simp
    · simp
    · intro c hc
      rcases List.mem_append.mp hc with hzero | hdigit
      · rw [List.eq_of_mem_replicate hzero]
        rfl
      · exact hdigits c hdigit
    · simp [Nat.ofDigitChars_cons, Nat.ofDigitChars_append, hvalue]
    · simp
      omega
  · split
    · -- the point would stand after the last digit
      rename_i hlarge
      have hzero : (dotPlace - digits.length).toNat = 0 := by omega
      rw [hzero, List.replicate_zero, List.append_nil]
      constructor
      · exact hne
      · exact hdigits
      · simp
      · simpa using hvalue
      · simp
        omega
    · constructor
      · intro hnil
        rcases List.take_eq_nil_iff.mp hnil with hzero | hempty
        · omega
        · exact hne hempty
      · exact fun c hc => hdigits c (List.mem_of_mem_take hc)
      · exact fun c hc => hdigits c (List.mem_of_mem_drop hc)
      · rw [List.take_append_drop, hvalue]
      · simp
        omega

theorem noDigit_fractionText (fraction : List Char) (e : Int) :
    NoDigit (fractionText fraction ++ exponentText e) := by
  unfold fractionText exponentText
  split <;> split <;> simp [NoDigit]

theorem signedText_inj {e e' : Int} (h : signedText e = signedText e') : e = e' := by
  obtain ⟨hsign, hdigits⟩ := List.cons.inj h
  have hnatAbs : e.natAbs = e'.natAbs := by
    have hvalue := congrArg (fun text => Nat.ofDigitChars 10 text 0) hdigits
    simpa only [Nat.ofDigitChars_ten_toDigits] using hvalue
  split at hsign <;> split at hsign <;> first | omega | exact absurd hsign (by decide)

theorem exponentText_inj {e e' : Int} (h : exponentText e = exponentText e') : e = e' := by
  unfold exponentText at h
  split at h <;> split at h
  · omega
  · cases h
  · cases h
  · exact signedText_inj (List.cons.inj h).2

/-- The digits after the point end where the exponent begins. -/
theorem fractionText_cancel {f f' : List Char} {e e' : Int} (hf : ∀ c ∈ f, c.isDigit)
    (hf' : ∀ c ∈ f', c.isDigit)
    (h : fractionText f ++ exponentText e = fractionText f' ++ exponentText e') : f = f' ∧
    e = e' := by
  have hexponent : ∀ e, NoDigit (exponentText e) := fun e => noDigit_fractionText [] e
  have hpoint : ∀ e t, exponentText e ≠ '.' :: t := by
    intro e t
    unfold exponentText
    split <;> simp
  by_cases hnil : f = []
  · by_cases hnil' : f' = []
    · rw [fractionText, fractionText, if_pos hnil, if_pos hnil'] at h
      exact ⟨hnil.trans hnil'.symm, exponentText_inj h⟩
    · rw [fractionText, fractionText, if_pos hnil, if_neg hnil'] at h
      exact absurd h (hpoint e _)
  · by_cases hnil' : f' = []
    · rw [fractionText, fractionText, if_neg hnil, if_pos hnil'] at h
      exact absurd h.symm (hpoint e' _)
    · rw [fractionText, fractionText, if_neg hnil, if_neg hnil'] at h
      obtain ⟨hfraction, hrest⟩ :=
        append_cancel hf hf' (hexponent e) (hexponent e') (List.cons.inj h).2
      exact ⟨hfraction, exponentText_inj hrest⟩

/-- Without a digit first, a text begins with the sign. -/
theorem sign_cancel {negative negative' : Bool} {w w' r r' : List Char} (hne : w ≠ [])
    (hne' : w' ≠ []) (hw : ∀ c ∈ w, c.isDigit) (hw' : ∀ c ∈ w', c.isDigit)
    (h : (if negative then ['-'] else []) ++ (w ++ r) = (if negative' then ['-'] else []) ++
      (w' ++ r')) :
    negative = negative' ∧ w ++ r = w' ++ r' := by
  have hminus : ∀ w r t : List Char, w ≠ [] → (∀ c ∈ w, c.isDigit) → w ++ r ≠ '-' :: t := by
    intro w r t hne hw heq
    obtain ⟨c, rest, rfl⟩ := List.exists_cons_of_ne_nil hne
    have hdigit := hw c List.mem_cons_self
    rw [(List.cons.inj heq).1] at hdigit
    exact absurd hdigit (by decide)
  cases negative <;> cases negative'
  · exact ⟨rfl, h⟩
  · exact absurd h (hminus w r _ hne hw)
  · exact absurd h.symm (hminus w' r' _ hne' hw')
  · exact ⟨rfl, (List.cons.inj h).2⟩

/-- **A decimal is determined by its text.** -/
theorem str_injective {d d' : Decimal} (h : d.str = d'.str) : d = d' := by
  have hshows := mantissa_shows d
  have hshows' := mantissa_shows d'
  obtain ⟨hnegative, htext⟩ :=
    sign_cancel hshows.whole_ne hshows'.whole_ne hshows.whole hshows'.whole
    (String.ofList_injective h)
  obtain ⟨hwhole, hrest⟩ := append_cancel hshows.whole hshows'.whole (noDigit_fractionText _ _)
    (noDigit_fractionText _ _) htext
  obtain ⟨hfraction, hexponent⟩ := fractionText_cancel hshows.fraction hshows'.fraction hrest
  have hcoefficient : d.coefficient = d'.coefficient := by
    rw [← hshows.coefficient, ← hshows'.coefficient, hwhole, hfraction]
  have hexponent' : d.exponent = d'.exponent := by
    rw [hshows.exponent, hshows'.exponent, hfraction, hexponent]
  cases d
  cases d'
  simp_all

end Arith.Decimal
