import Mathlib.Data.List.Infix
import ModelRouter.Domain.Catalogue
import ModelRouter.Lib.Json

/-!
# Dynamic values

The values that `json.loads` makes of a text, the operations of Python on them, and what pydantic
makes of one as the value of a field.

How pydantic reads a number or a flag is a parameter (`Pydantic`); every rejection of pydantic's is
a `ValidationError`.
-/

namespace ModelRouter
open Arith Json

/-- The exceptions of handling a dynamic value, or the text of one. -/
inductive DynamicError where
  | jsonDecodeError | recursionError | invalidOperation | assertionError | attributeError |
    typeError | valueError
  | validationError
  | keyError (key : String)
deriving DecidableEq, Repr

/-- The constants that `json.loads` reads beyond JSON. -/
inductive NonFinite where
  | nan | infinity | negInfinity
deriving DecidableEq, Repr

inductive PyFloat where
  | finite (q : ℚ)
  | constant (c : NonFinite)
deriving DecidableEq, Repr

inductive PyNumber where
  | int (n : Int)
  | decimal (d : Decimal)
  | float (x : PyFloat)
deriving DecidableEq, Repr

abbrev PyValue : Type := Value PyNumber

/-! ## Operations -/

namespace PyNumber

def truthy : PyNumber → Bool
  | int n => n ≠ 0
  | decimal d => d.coefficient ≠ 0
  | float (.finite q) => q ≠ 0
  | float (.constant _) => true

end PyNumber

namespace PyValue

/-- The truth value. -/
def truthy : PyValue → Bool
  | .null => false
  | .bool b => b
  | .number n => n.truthy
  | .string (.text s) => s ≠ ""
  | .string (.surrogates codePoints) => codePoints ≠ []
  | .array items => !items.isEmpty
  | .object members => !members.isEmpty

/-- A value that has a `get`. -/
def isDict : PyValue → Bool
  | .object _ => true
  | _ => false

/-- `value.get(key, default)`. -/
def get (key : String) (value : PyValue) (default : PyValue := .null) :
    Except DynamicError PyValue :=
  match value with
  | .object members => .ok ((lookup key members).getD default)
  | _ => .error .attributeError

/-- `value[key]` for a string `key`. -/
def getItem (key : String) : PyValue → Except DynamicError PyValue
  | .object members => match lookup key members with
    | some value => .ok value
    | none => .error (.keyError key)
  | _ => .error .typeError

/-- `key in value` for a string `key`. -/
def contains (key : String) : PyValue → Except DynamicError Bool
  | .object members => .ok (lookup key members).isSome
  | .array items => .ok (items.any fun item => item.isText key)
  | .string s => .ok (decide (key.toList.map Char.toNat <:+: s.codePoints))
  | _ => .error .typeError

/-- What `for .. in value` ranges over. -/
def iter : PyValue → Except DynamicError (List PyValue)
  | .array items => .ok items
  | .string s => .ok (s.chars.map .string)
  | .object members => .ok (members.map fun member => .string member.1)
  | _ => .error .typeError

/-- `value or {}`. -/
def orEmpty (value : PyValue) : PyValue := if truthy value then value else .object []

/-- An item of `"".join(..)`. -/
def joined : PyValue → Except DynamicError Str
  | .string s => .ok s
  | _ => .error .typeError

/-- `members.get(value, default)` for a dictionary with strings for keys. -/
def getIn {α : Type} (members : List (String × α)) (default : α) : PyValue → Except DynamicError α
  | .string (.text s) => .ok (((members.find? (·.1 = s)).map (·.2)).getD default)
  | .array _ | .object _ => .error .typeError
  | _ => .ok default

/-- The call of an enumeration: `None` is let through where the field is optional. -/
def enumOf {α : Type} (members : List (String × α)) (value : PyValue) : Except DynamicError α :=
  match value with
  | .string (.text s) => match members.find? (·.1 = s) with
    | some member => .ok member.2
    | none => .error .valueError
  | _ => .error .valueError

def optionalEnumOf {α : Type} (members : List (String × α)) (value : PyValue) :
    Except DynamicError (Option α) :=
  match value with
  | .null => .ok none
  | value => (enumOf members value).map some

variable {key : String} {members : List (Str × PyValue)} {value : PyValue}

theorem contains_object : contains key (.object members) = .ok (lookup key members).isSome := rfl

theorem get_object {default : PyValue} :
    get key (.object members) default = .ok ((lookup key members).getD default) := rfl

theorem getItem_object (h : lookup key members = some value) :
    getItem key (.object members) = .ok value := by
  simp only [getItem, h]

end PyValue

/-! ## The members of the enumerations -/

def roles : List (String × Role) :=
  [("system", .system), ("user", .user), ("assistant", .assistant)]

def qualityTiers : List (String × QualityTier) := [("standard", .standard), ("premium", .premium)]

def latencyPreferences : List (String × LatencyPreference) :=
  [("low", .low), ("balanced", .balanced), ("high", .high)]

/-! ## Validation -/

/-- How pydantic reads numbers and flags, in its lax mode. -/
structure Pydantic where
  int : PyValue → Option Int
  bool : PyValue → Option Bool
  decimal : PyValue → Option Decimal

namespace Pydantic

/-- Numbers and flags that need no conversion. -/
def strict : Pydantic where
  int
    | .number (.int n) => some n
    | _ => none
  bool
    | .bool b => some b
    | _ => none
  decimal
    | .number (.decimal d) => some d
    | _ => none

variable (pydantic : Pydantic)

/-- A field of type `str`. -/
def str : PyValue → Option String
  | .string (.text s) => some s
  | _ => none

/-- A field of type `T | None`. -/
def optional {α : Type} (field : PyValue → Option α) : PyValue → Option (Option α)
  | .null => some none
  | value => (field value).map some

/-- `Money`, which rejects floats first. -/
def money : PyValue → Option Money
  | .number (.float _) => none
  | value => pydantic.decimal value

/-- `Field(gt=0)`. -/
def positiveInt (value : PyValue) : Option Nat :=
  match pydantic.int value with
  | some n => if 0 < n then some n.toNat else none
  | none => none

/-- `Field(ge=0)`. -/
def nonNegativeInt (value : PyValue) : Option Nat :=
  match pydantic.int value with
  | some n => if 0 ≤ n then some n.toNat else none
  | none => none

/-- `Mapping[str, str]`. -/
def strMapping : PyValue → Option (List (String × String))
  | .object members => members.mapM fun member => do
    let key ← str (.string member.1)
    let value ← str member.2
    pure (key, value)
  | _ => none

/-- The model `Usage`. -/
def usage (inputTokens outputTokens : PyValue) : Option Usage := do
  let inputTokens ← pydantic.nonNegativeInt inputTokens
  let outputTokens ← pydantic.nonNegativeInt outputTokens
  pure { inputTokens, outputTokens }

theorem str_eq_some_iff {value : PyValue} {s : String} :
    str value = some s ↔ value = .string (.text s) := by
  unfold str
  split <;> simp_all

end Pydantic

/-- A rejection of pydantic's. -/
def validated {α : Type} : Option α → Except DynamicError α
  | some a => .ok a
  | none => .error .validationError

theorem validated_ok_iff {α : Type} {o : Option α} {a : α} : validated o = .ok a ↔ o = some a := by
  unfold validated
  split <;> simp

end ModelRouter
