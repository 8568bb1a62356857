import Mathlib.Data.List.Basic
import Mathlib.Data.String.Basic

/-!
# Base64

* `encode` : bytes in the alphabet of RFC 4648, padded;
* `decode` : the lenient decoder of `binascii.a2b_base64`, which skips every character that is not
  in the alphabet, and stops at the padding that completes a quantum;
* `decode_of_filter` : what is skipped does not matter; `decode_encode` : what was encoded is
  decoded.
-/

namespace Base64

def alphabet : List Char :=
  "ABCDEFGHIJKLMNOPQRSTUVWXYZabcdefghijklmnopqrstuvwxyz0123456789+/".toList

def digit (n : Nat) : Char := alphabet.getD n '='

/-- The six bits of a character of the alphabet. -/
def value (c : Char) : Option Nat := alphabet.idxOf? c

/-! ## Encoding -/

def encode : List UInt8 → List Char
  | [] => []
  | [a] => [digit (a.toNat / 4), digit (a.toNat % 4 * 16), '=', '=']
  | [a, b] =>
      [digit (a.toNat / 4), digit (a.toNat % 4 * 16 + b.toNat / 16), digit (b.toNat % 16 * 4), '=']
  | a :: b :: c :: rest =>
    digit (a.toNat / 4) :: digit (a.toNat % 4 * 16 + b.toNat / 16) ::
      digit (b.toNat % 16 * 4 + c.toNat / 64) ::
      digit (c.toNat % 64) :: encode rest

/-! ## Decoding -/

inductive DecodeError where
  /-- One character is left over. -/
  | length
  | padding
deriving DecidableEq, Repr

/-- Where the decoder stands in a quantum: the characters read of it, the bits not yet written, and
the padding. -/
structure Quantum where
  position : Nat := 0
  left : Nat := 0
  pads : Nat := 0

/-- The bytes of the rest of a text. -/
def decodeFrom : List Char → Quantum → Except DecodeError (List UInt8)
  | [], q =>
      if q.position = 0 then .ok [] else .error (if q.position = 1 then .length else .padding)
  | c :: cs, q =>
    if c = '=' then
      if 2 ≤ q.position then
        if 4 ≤ q.position + (q.pads + 1) then .ok []
          else decodeFrom cs { q with pads := q.pads + 1 }
      else decodeFrom cs q
    else match value c with
      | none => decodeFrom cs q
      | some v => match q.position with
        | 0 => decodeFrom cs { position := 1, left := v }
        | 1 =>
            (decodeFrom cs { position := 2, left := v % 16 }).map
              (UInt8.ofNat (q.left * 4 + v / 16) :: ·)
        | 2 =>
            (decodeFrom cs { position := 3, left := v % 4 }).map
              (UInt8.ofNat (q.left * 16 + v / 4) :: ·)
        | _ => (decodeFrom cs {}).map (UInt8.ofNat (q.left * 64 + v) :: ·)

def decode (text : List Char) : Except DecodeError (List UInt8) := decodeFrom text {}

/-- The decoder reads the character. -/
def read (c : Char) : Bool := c = '=' || (value c).isSome

/-! ## Characters -/

theorem value_digit {n : Nat} (h : n < 64) : value (digit n) = some n := by
  have hall : ∀ k < 64, value (digit k) = some k := by decide +kernel
  exact hall n h

theorem digit_ne_pad {n : Nat} (h : n < 64) : digit n ≠ '=' := by
  have hall : ∀ k < 64, digit k ≠ '=' := by decide +kernel
  exact hall n h

/-- **Characters outside the alphabet are skipped.** -/
theorem decodeFrom_filter (text : List Char) (q : Quantum) :
    decodeFrom (text.filter read) q = decodeFrom text q := by
  induction text generalizing q with
  | nil => rfl
  | cons c text ih =>
      by_cases hpad : c = '='
      · subst hpad
        rw [List.filter_cons_of_pos (by simp [read]), decodeFrom, decodeFrom]
        simp only [ih]
      · cases hvalue : value c with
        | none =>
            rw [List.filter_cons_of_neg (by simp [read, hpad, hvalue]), ih, decodeFrom,
              if_neg hpad, hvalue]
        | some v =>
            rw [List.filter_cons_of_pos (by simp [read, hvalue]), decodeFrom, decodeFrom,
              if_neg hpad, if_neg hpad, hvalue]
            simp only [ih]

theorem decode_of_filter {text text' : List Char} (h : text.filter read = text'.filter read) :
    decode text = decode text' := by
  unfold decode
  rw [← decodeFrom_filter text, h, decodeFrom_filter text']

/-! ## What was encoded -/

section
variable {n : Nat} (h : n < 64) (cs : List Char) (left pads : Nat)
include h

theorem decodeFrom_first :
    decodeFrom (digit n :: cs) { left, pads } = decodeFrom cs { position := 1, left := n } := by
  rw [decodeFrom, if_neg (digit_ne_pad h), value_digit h]
  rfl

theorem decodeFrom_second : decodeFrom (digit n :: cs) { position := 1, left, pads } =
    (decodeFrom cs { position := 2, left := n % 16 }).map
      (UInt8.ofNat (left * 4 + n / 16) :: ·) := by
  rw [decodeFrom, if_neg (digit_ne_pad h), value_digit h]
  rfl

theorem decodeFrom_third : decodeFrom (digit n :: cs) { position := 2, left, pads } =
    (decodeFrom cs { position := 3, left := n % 4 }).map
      (UInt8.ofNat (left * 16 + n / 4) :: ·) := by
  rw [decodeFrom, if_neg (digit_ne_pad h), value_digit h]
  rfl

theorem decodeFrom_fourth : decodeFrom (digit n :: cs) { position := 3, left, pads } =
    (decodeFrom cs {}).map (UInt8.ofNat (left * 64 + n) :: ·) := by
  rw [decodeFrom, if_neg (digit_ne_pad h), value_digit h]
  rfl

end

/-- The bits of a byte, cut in two. -/
theorem ofNat_split (a : UInt8) {n m k : Nat} (hn : n = a.toNat / k) (hm : m = a.toNat % k) :
    UInt8.ofNat (n * k + m) = a := by
  rw [hn, hm, Nat.div_add_mod', UInt8.ofNat_toNat]

/-- **What was encoded is decoded.** -/
theorem decode_encode (bytes : List UInt8) : decode (encode bytes) = .ok bytes := by
  unfold decode
  induction bytes using encode.induct with
  | case1 => rfl
  | case2 a =>
      have ha := a.toNat_lt
      rw [encode, decodeFrom_first (by omega), decodeFrom_second (by omega),
        ofNat_split a rfl (by omega)]
      rfl
  | case3 a b =>
      have ha := a.toNat_lt
      have hb := b.toNat_lt
      rw [encode, decodeFrom_first (by omega), decodeFrom_second (by omega),
        decodeFrom_third (by omega),
        ofNat_split a rfl (by omega), ofNat_split b (by omega) (by omega)]
      rfl
  | case4 a b c rest ih =>
      have ha := a.toNat_lt
      have hb := b.toNat_lt
      have hc := c.toNat_lt
      rw [encode, decodeFrom_first (by omega), decodeFrom_second (by omega),
        decodeFrom_third (by omega),
        decodeFrom_fourth (by omega), ih, ofNat_split a rfl (by omega),
          ofNat_split b (by omega) (by omega),
        ofNat_split c (by omega) (by omega)]
      rfl

/-- A text in which the decoder reads just the encoded bytes, in whatever lines. -/
theorem decode_of_reads {text : List Char} {bytes : List UInt8}
    (h : text.filter read = (encode bytes).filter read) :
    decode text = .ok bytes := by
  rw [decode_of_filter h, decode_encode]

end Base64
