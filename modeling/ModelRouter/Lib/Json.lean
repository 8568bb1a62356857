import Mathlib.Data.List.Basic
import Mathlib.Data.String.Basic

/-!
# JSON values

`Value ν` is a JSON value whose numbers are of type `ν`. A string is a text, or a sequence of code
points that encodes none because it holds a lone surrogate.

* `Value.load` : a value with its numbers converted and its objects turned into dictionaries, from
  left to right, down to a bounded nesting; it succeeds exactly on values that nest no deeper and
  whose numbers can be converted (`load_ok_iff`);
* `dict`, `lookup` : dictionaries, where the last of several members with one key counts.
-/

namespace Json

/-- A text, or code points that are not one. -/
inductive Str where
  | text (s : String)
  | surrogates (codePoints : List Nat)
deriving DecidableEq, Repr

namespace Str

/-- The string of one code point. -/
def ofCodePoint (c : Nat) : Str :=
  if h : c.isValidChar then .text (Char.ofNatAux c h).toString else .surrogates [c]

/-- The strings of a string's code points. -/
def chars : Str → List Str
  | .text s => s.toList.map fun c => .text c.toString
  | .surrogates codePoints => codePoints.map ofCodePoint

def codePoints : Str → List Nat
  | .text s => s.toList.map Char.toNat
  | .surrogates codePoints => codePoints

/-- The strings one after the other. -/
def join : List Str → Str
  | [] => .text ""
  | s :: strings => match s, join strings with
    | .text s, .text rest => .text (s ++ rest)
    | s, rest => .surrogates (s.codePoints ++ rest.codePoints)

end Str

inductive Value (ν : Type) where
  | null
  | bool (b : Bool)
  | number (n : ν)
  | string (s : Str)
  | array (items : List (Value ν))
  | object (members : List (Str × Value ν))

variable {ν μ ε α : Type}

/-! ## Dictionaries -/

/-- The dictionary with one more entry, in the place of the one with its key. -/
def insert (key : Str) (value : α) : List (Str × α) → List (Str × α)
  | [] => [(key, value)]
  | entry :: entries =>
      if entry.1 = key then (key, value) :: entries else entry :: insert key value entries

/-- The dictionary of a list of members. -/
def dict (members : List (Str × α)) : List (Str × α) :=
  members.foldl (fun entries member => insert member.1 member.2 entries) []

def lookup (key : String) (entries : List (Str × α)) : Option α :=
  (entries.find? (·.1 = .text key)).map (·.2)

namespace Value

def isNull : Value ν → Bool
  | .null => true
  | _ => false

/-- The value is the string `s`. -/
def isText (s : String) : Value ν → Bool
  | .string (.text s') => s' = s
  | _ => false

end Value

/-! ## Loading -/

namespace Value

mutual

/-- How deep arrays and objects nest. -/
def depth : Value ν → Nat
  | .array items => itemsDepth items + 1
  | .object members => membersDepth members + 1
  | _ => 0

def itemsDepth : List (Value ν) → Nat
  | [] => 0
  | item :: items => max item.depth (itemsDepth items)

def membersDepth : List (Str × Value ν) → Nat
  | [] => 0
  | (_, value) :: members => max value.depth (membersDepth members)

end

mutual

/-- The numbers of a value. -/
def numbers : Value ν → List ν
  | .number n => [n]
  | .array items => itemsNumbers items
  | .object members => membersNumbers members
  | _ => []

def itemsNumbers : List (Value ν) → List ν
  | [] => []
  | item :: items => item.numbers ++ itemsNumbers items

def membersNumbers : List (Str × Value ν) → List ν
  | [] => []
  | (_, value) :: members => value.numbers ++ membersNumbers members

end

mutual

/-- The value with its numbers converted, if it nests at most `n` deep. -/
def load (convert : ν → Except ε μ) (tooDeep : ε) : Nat → Value ν → Except ε (Value μ)
  | _, .null => .ok .null
  | _, .bool b => .ok (.bool b)
  | _, .number n => (convert n).map .number
  | _, .string s => .ok (.string s)
  | 0, .array _ => .error tooDeep
  | n + 1, .array items => (loadItems convert tooDeep n items).map .array
  | 0, .object _ => .error tooDeep
  | n + 1, .object members =>
      (loadMembers convert tooDeep n members).map fun members => .object (dict members)

def loadItems (convert : ν → Except ε μ) (tooDeep : ε) (n : Nat) :
    List (Value ν) → Except ε (List (Value μ))
  | [] => .ok []
  | item :: items => do
    let item ← load convert tooDeep n item
    let items ← loadItems convert tooDeep n items
    pure (item :: items)

def loadMembers (convert : ν → Except ε μ) (tooDeep : ε) (n : Nat) :
    List (Str × Value ν) → Except ε (List (Str × Value μ))
  | [] => .ok []
  | (key, value) :: members => do
    let value ← load convert tooDeep n value
    let members ← loadMembers convert tooDeep n members
    pure ((key, value) :: members)

end

variable {convert : ν → Except ε μ} {tooDeep : ε}

mutual

/-- **What can be loaded.** -/
theorem load_ok_iff (n : Nat) (value : Value ν) :
    (∃ loaded, value.load convert tooDeep n = .ok loaded) ↔
    value.depth ≤ n ∧ ∀ k ∈ value.numbers, ∃ m, convert k = .ok m := by
  cases value with
  | null => simp [load, depth, numbers]
  | bool b => simp [load, depth, numbers]
  | string s => simp [load, depth, numbers]
  | number k => cases h : convert k <;> simp [load, depth, numbers, h, Except.map]
  | array items =>
      cases n with
      | zero => simp [load, depth]
      | succ n =>
          rw [depth, Nat.add_le_add_iff_right, numbers, ← loadItems_ok_iff n items]
          cases h : loadItems convert tooDeep n items <;> simp [load, h, Except.map]
  | object members =>
      cases n with
      | zero => simp [load, depth]
      | succ n =>
          rw [depth, Nat.add_le_add_iff_right, numbers, ← loadMembers_ok_iff n members]
          cases h : loadMembers convert tooDeep n members <;> simp [load, h, Except.map]

theorem loadItems_ok_iff (n : Nat) (items : List (Value ν)) :
    (∃ loaded, loadItems convert tooDeep n items = .ok loaded) ↔
      itemsDepth items ≤ n ∧ ∀ k ∈ itemsNumbers items, ∃ m, convert k = .ok m := by
  cases items with
  | nil => simp [loadItems, itemsDepth, itemsNumbers]
  | cons item items =>
      have hitem := load_ok_iff n item
      have hitems := loadItems_ok_iff n items
      rw [itemsDepth, itemsNumbers, Nat.max_le, List.forall_mem_append, and_and_and_comm,
        ← hitem, ← hitems]
      cases h : item.load convert tooDeep n <;> cases h' : loadItems convert tooDeep n items <;>
        simp [loadItems, h, h', bind, Except.bind, pure, Except.pure]

theorem loadMembers_ok_iff (n : Nat) (members : List (Str × Value ν)) :
    (∃ loaded, loadMembers convert tooDeep n members = .ok loaded) ↔
      membersDepth members ≤ n ∧ ∀ k ∈ membersNumbers members, ∃ m, convert k = .ok m := by
  cases members with
  | nil => simp [loadMembers, membersDepth, membersNumbers]
  | cons member members =>
      obtain ⟨key, value⟩ := member
      have hvalue := load_ok_iff n value
      have hmembers := loadMembers_ok_iff n members
      rw [membersDepth, membersNumbers, Nat.max_le, List.forall_mem_append, and_and_and_comm,
        ← hvalue, ← hmembers]
      cases h : value.load convert tooDeep n <;> cases h' :
        loadMembers convert tooDeep n members <;>
        simp [loadMembers, h, h', bind, Except.bind, pure, Except.pure]

end

mutual

/-- Loading raises what a number raises, or that the value nests too deep. -/
theorem load_error {n : Nat} {value : Value ν} {x : ε}
    (h : value.load convert tooDeep n = .error x) :
    x = tooDeep ∨ ∃ k ∈ value.numbers, convert k = .error x := by
  cases value with
  | null | bool b | string s => cases n <;> cases h
  | number k =>
      cases hk : convert k with
      | ok m => cases n <;> simp [load, hk, Except.map] at h
      | error y =>
          have hxy : y = x := by cases n <;> simpa [load, hk, Except.map] using h
          exact Or.inr ⟨k, List.mem_singleton_self k, hxy ▸ hk⟩
  | array items =>
      cases n with
      | zero => exact Or.inl (Except.error.inj h).symm
      | succ n =>
          cases hitems : loadItems convert tooDeep n items with
          | ok loaded => simp [load, hitems, Except.map] at h
          | error y =>
              have hxy : y = x := by simpa [load, hitems, Except.map] using h
              exact loadItems_error (hxy ▸ hitems)
  | object members =>
      cases n with
      | zero => exact Or.inl (Except.error.inj h).symm
      | succ n =>
          cases hmembers : loadMembers convert tooDeep n members with
          | ok loaded => simp [load, hmembers, Except.map] at h
          | error y =>
              have hxy : y = x := by simpa [load, hmembers, Except.map] using h
              exact loadMembers_error (hxy ▸ hmembers)

theorem loadItems_error {n : Nat} {items : List (Value ν)} {x : ε}
    (h : loadItems convert tooDeep n items = .error x) :
    x = tooDeep ∨ ∃ k ∈ itemsNumbers items, convert k = .error x := by
  cases items with
  | nil => cases h
  | cons item items =>
      have hmem : ∀ {k : ν}, k ∈ item.numbers ∨ k ∈ itemsNumbers items →
          k ∈ itemsNumbers (item :: items) :=
        fun hk => List.mem_append.mpr hk
      cases hitem : item.load convert tooDeep n with
      | error y =>
          have hxy : y = x := by simpa [loadItems, hitem, bind, Except.bind] using h
          exact (load_error (hxy ▸ hitem)).imp_right fun ⟨k, hk, hx⟩ => ⟨k, hmem (Or.inl hk), hx⟩
      | ok loaded =>
          cases hitems : loadItems convert tooDeep n items with
          | ok rest => simp [loadItems, hitem, hitems, bind, Except.bind, pure, Except.pure] at h
          | error y =>
              have hxy : y = x := by simpa [loadItems, hitem, hitems, bind, Except.bind] using h
              exact (loadItems_error (hxy ▸ hitems)).imp_right fun ⟨k, hk, hx⟩ =>
                ⟨k, hmem (Or.inr hk), hx⟩

theorem loadMembers_error {n : Nat} {members : List (Str × Value ν)} {x : ε}
    (h : loadMembers convert tooDeep n members = .error x) :
    x = tooDeep ∨ ∃ k ∈ membersNumbers members, convert k = .error x := by
  cases members with
  | nil => cases h
  | cons member members =>
      obtain ⟨key, value⟩ := member
      have hmem : ∀ {k : ν}, k ∈ value.numbers ∨ k ∈ membersNumbers members →
          k ∈ membersNumbers ((key, value) :: members) := fun hk => List.mem_append.mpr hk
      cases hvalue : value.load convert tooDeep n with
      | error y =>
          have hxy : y = x := by simpa [loadMembers, hvalue, bind, Except.bind] using h
          exact (load_error (hxy ▸ hvalue)).imp_right fun ⟨k, hk, hx⟩ => ⟨k, hmem (Or.inl hk), hx⟩
      | ok loaded =>
          cases hmembers : loadMembers convert tooDeep n members with
          | ok rest =>
              simp [loadMembers, hvalue, hmembers, bind, Except.bind, pure, Except.pure] at h
          | error y =>
              have hxy : y = x := by
                simpa [loadMembers, hvalue, hmembers, bind, Except.bind] using h
              exact (loadMembers_error (hxy ▸ hmembers)).imp_right fun ⟨k, hk, hx⟩ =>
                ⟨k, hmem (Or.inr hk), hx⟩

end

end Value

end Json
