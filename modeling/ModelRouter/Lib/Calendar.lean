import Mathlib.Data.List.Basic
import Mathlib.Data.String.Basic
import Mathlib.Tactic.Ring

/-!
# Times and their texts

A time is a number of microseconds since 1970, in UTC.

* `civil` : the date of a day in the Gregorian calendar;
* `text` : a time as ISO 8601 writes it, without an offset; microseconds are left out where there
  are none;
* `FourDigits` : the year has four digits.
-/

namespace Calendar

/-! ## Dates -/

structure Date where
  year : Nat
  month : Nat
  day : Nat
deriving DecidableEq, Repr

/-- A day of a year that begins in March. -/
structure MarchDay where
  year : Nat
  dayOfYear : Nat

/-- The years of four centuries are counted by centuries, by leap cycles and one by one. -/
def marchDay (n : Nat) : MarchDay :=
  let era := n / 146097
  let century := min 3 (n % 146097 / 36524)
  let rest := n % 146097 - century * 36524
  let cycle := rest / 1461
  let single := min 3 (rest % 1461 / 365)
  { year := era * 400 + century * 100 + cycle * 4 + single,
    dayOfYear := rest % 1461 - single * 365 }

/-- Days are counted from the first of March of the year zero. -/
def epoch : Nat := 719468

/-- The date of a day since 1970. -/
def civil (days : Nat) : Date :=
  let d := marchDay (days + epoch)
  let index := (5 * d.dayOfYear + 2) / 153
  { year := if index < 10 then d.year else d.year + 1
    month := if index < 10 then index + 3 else index - 9
    day := d.dayOfYear - (153 * index + 2) / 5 + 1 }

/-! ## Digits -/

/-- The last `width` decimal digits of a number. -/
def pad : Nat → Nat → List Char
  | 0, _ => []
  | width + 1, n => pad width (n / 10) ++ [Nat.digitChar (n % 10)]

/-! ## Texts -/

def dayMicroseconds : Nat := 86400000000

/-- `"%04d"` -/
def yearText (year : Nat) : List Char := if year < 10 ^ 4 then pad 4 year else Nat.toDigits 10 year

def dateText (date : Date) : List Char :=
  yearText date.year ++ ('-' :: (pad 2 date.month ++ ('-' :: pad 2 date.day)))

/-- A whole second has no fraction. -/
def fraction (n : Nat) : List Char := if n = 0 then [] else '.' :: pad 6 n

/-- Hours, minutes, seconds, and the microseconds if there are any. -/
def clockText (microseconds : Nat) : List Char :=
  pad 2 (microseconds / 3600000000) ++ (':' :: (pad 2 (microseconds / 60000000 % 60) ++
    (':' :: (pad 2 (microseconds / 1000000 % 60) ++ fraction (microseconds % 1000000)))))

/-- The time, without an offset. -/
def text (t : Nat) : List Char :=
  dateText (civil (t / dayMicroseconds)) ++ ('T' :: clockText (t % dayMicroseconds))

/-- The time has a year of four digits. -/
def FourDigits (t : Nat) : Prop := (civil (t / dayMicroseconds)).year < 10 ^ 4

instance (t : Nat) : Decidable (FourDigits t) := inferInstanceAs (Decidable (_ < _))

example : String.ofList (text 1767225600000000) = "2026-01-01T00:00:00" := by decide +kernel

example : String.ofList (text 951782400123456) = "2000-02-29T00:00:00.123456" := by decide +kernel

end Calendar
