import Mathlib.Data.Fintype.Basic
import ModelRouter.Domain.DynamicValues
import ModelRouter.Domain.Policy

/-!
# Request bodies

* `parseJsonBody` : `json.loads` with decimals for floats, from the JSON value that a body is; it
  succeeds on values that nest no deeper than the interpreter can follow and whose numbers are
  readable (`parseJsonBody_ok_iff`);
* `parseInferenceRequest` : the request of a decoded body, or the exception that Python raises on
  it. A value without the attribute `get` is the one that no handler expects
  (`parse_translated_iff`).
-/

namespace ModelRouter
open Arith Json

/-! ## Numbers -/

structure NumberLiteral where
  negative : Bool := false
  digits : List (Fin 10)
  fraction : Option (List (Fin 10)) := none
  exponent : Option Int := none
deriving DecidableEq, Repr

inductive JsonNumber where
  | literal (l : NumberLiteral)
  | constant (c : NonFinite)
deriving DecidableEq, Repr

abbrev JsonValue : Type := Value JsonNumber

/-- `sys.get_int_max_str_digits()`. -/
def intMaxStrDigits : Nat := 4300

/-- The bounds of a decimal's exponents, `MAX_EMAX` and `MIN_ETINY`. -/
def maxEmax : Int := 999999999999999999
def minEtiny : Int := -1999999999999999997

def digitsValue (digits : List (Fin 10)) : Nat := digits.foldl (fun n d => 10 * n + d) 0

namespace NumberLiteral

variable (l : NumberLiteral)

/-- The literal is one of an integer. -/
def isInt : Bool := l.fraction = none ∧ l.exponent = none

def toInt : Int := if l.negative then -digitsValue l.digits else digitsValue l.digits

def toDecimal : Decimal where
  negative := l.negative
  coefficient := digitsValue (l.digits ++ l.fraction.getD [])
  exponent := l.exponent.getD 0 - (l.fraction.getD []).length

/-- The decimal has an exponent that a `Decimal` can have. -/
def decimalInRange : Bool :=
  minEtiny ≤ l.toDecimal.exponent ∧
    l.toDecimal.exponent + (max 1 (Decimal.numDigits l.toDecimal.coefficient) : Nat) - 1 ≤ maxEmax

end NumberLiteral

/-- `int` and `parse_float=Decimal`. -/
def convertNumber : JsonNumber → Except DynamicError PyNumber
  | .constant c => .ok (.float (.constant c))
  | .literal l =>
    if l.isInt then
      if l.digits.length ≤ intMaxStrDigits then .ok (.int l.toInt) else .error .valueError
    else if l.decimalInRange then .ok (.decimal l.toDecimal)
    else .error .invalidOperation

/-- A number that can be converted. -/
def JsonNumber.Readable : JsonNumber → Prop
  | .constant _ => True
  | .literal l => if l.isInt then l.digits.length ≤ intMaxStrDigits else l.decimalInRange = true

theorem convertNumber_ok_iff (n : JsonNumber) :
    (∃ converted, convertNumber n = .ok converted) ↔ n.Readable := by
  cases n with
  | constant c => simp [convertNumber, JsonNumber.Readable]
  | literal l =>
      simp only [convertNumber, JsonNumber.Readable]
      split
      · split <;> simp_all
      · split <;> simp_all

/-- `parse_json_body`, for an interpreter whose stack allows `nestingLimit` nested values. -/
def parseJsonBody (nestingLimit : Nat) (body : JsonValue) : Except DynamicError PyValue :=
  body.load convertNumber .recursionError nestingLimit

theorem parseJsonBody_ok_iff (nestingLimit : Nat) (body : JsonValue) :
    (∃ value, parseJsonBody nestingLimit body = .ok value) ↔
      body.depth ≤ nestingLimit ∧ ∀ n ∈ body.numbers, n.Readable := by
  simp only [parseJsonBody, Value.load_ok_iff, convertNumber_ok_iff]

/-- `json.loads` raises nothing else. -/
theorem parseJsonBody_error {nestingLimit : Nat} {body : JsonValue} {x : DynamicError}
    (h : parseJsonBody nestingLimit body = .error x) :
    x = .recursionError ∨ x = .invalidOperation ∨ x = .valueError := by
  have hconvert : ∀ n x, convertNumber n = .error x → x = .invalidOperation ∨ x = .valueError := by
    intro n x hx
    unfold convertNumber at hx
    split at hx
    · cases hx
    · split at hx
      · split at hx
        · cases hx
        · exact Or.inr (Except.error.inj hx).symm
      · split at hx
        · cases hx
        · exact Or.inl (Except.error.inj hx).symm
  exact (Value.load_error h).imp_right fun ⟨n, _, hn⟩ => hconvert n x hn

/-! ## Validation -/

open Pydantic

/-- The model `RoutingRequirements`. -/
def validateRequirements (pydantic : Pydantic) (capability : PyValue)
    (qualityTier : Option QualityTier) (maximumEstimatedCostUsd maximumOutputTokens : PyValue)
    (latencyPreference : Option LatencyPreference)
    (requiresToolUse requiresStructuredOutput : PyValue) : Option RoutingRequirements := do
  let capability ← str capability
  let maximumEstimatedCostUsd ← optional pydantic.money maximumEstimatedCostUsd
  let maximumOutputTokens ← optional pydantic.positiveInt maximumOutputTokens
  let requiresToolUse ← pydantic.bool requiresToolUse
  let requiresStructuredOutput ← pydantic.bool requiresStructuredOutput
  if h : ∀ n ∈ maximumOutputTokens, 0 < n then
    some { capability, qualityTier, maximumEstimatedCostUsd, maximumOutputTokens, latencyPreference, requiresToolUse
           requiresStructuredOutput, maximumOutputTokens_pos := h }
  else none

/-- The model `InferenceRequest`. -/
def validateRequest (applicationId : PyValue) (messages : List Message)
    (requirements : RoutingRequirements)
    (conversationId idempotencyKey metadata : PyValue) : Option InferenceRequest := do
  let applicationId ← str applicationId
  let conversationId ← optional str conversationId
  let idempotencyKey ← optional str idempotencyKey
  let metadata ← strMapping metadata
  if h : messages ≠ [] ∧ isBlank applicationId = false then
    some { applicationId, messages, requirements, conversationId, idempotencyKey, metadata, messages_ne := h.1
           applicationId_not_blank := h.2 }
  else none

/-! ## The request of a body -/

open PyValue

def parseRequirements (pydantic : Pydantic) (requirementsRaw : PyValue) :
    Except DynamicError RoutingRequirements := do
  let qualityTier ← requirementsRaw.get "qualityTier"
  let latencyPreference ← requirementsRaw.get "latencyPreference"
  let capability ← requirementsRaw.getItem "capability"
  let qualityTier ← optionalEnumOf qualityTiers qualityTier
  let maximumEstimatedCostUsd ← requirementsRaw.get "maximumEstimatedCostUsd"
  let maximumOutputTokens ← requirementsRaw.get "maximumOutputTokens"
  let latencyPreference ← optionalEnumOf latencyPreferences latencyPreference
  let requiresToolUse ← requirementsRaw.get "requiresToolUse" (.bool false)
  let requiresStructuredOutput ← requirementsRaw.get "requiresStructuredOutput" (.bool false)
  validated (validateRequirements pydantic capability qualityTier maximumEstimatedCostUsd
    maximumOutputTokens
    latencyPreference requiresToolUse requiresStructuredOutput)

def parseMessage (message : PyValue) : Except DynamicError Message := do
  let role ← enumOf roles (← message.getItem "role")
  let content ← message.getItem "content"
  let content ← validated (str content)
  pure { role, content }

def parseInferenceRequest (pydantic : Pydantic) (body : PyValue) :
    Except DynamicError InferenceRequest := do
  let requirementsRaw := (← body.get "requirements").orEmpty
  let requirements ← parseRequirements pydantic requirementsRaw
  let messages ← (← (← body.getItem "messages").iter).mapM parseMessage
  let applicationId ← body.getItem "applicationId"
  let conversationId ← body.get "conversationId"
  let idempotencyKey ← body.get "idempotencyKey"
  let metadata := (← body.get "metadata").orEmpty
  validated (validateRequest applicationId messages requirements conversationId
    idempotencyKey metadata)

/-! ## The exceptions of a body -/

/-- `except (ValidationError, KeyError, TypeError, ValueError)`. -/
def DynamicError.translated : DynamicError → Bool
  | validationError | keyError _ | typeError | valueError | jsonDecodeError => true
  | recursionError | invalidOperation | assertionError | attributeError => false

/-- The computation raises only what the handlers translate. -/
def Translated {α : Type} (m : Except DynamicError α) : Prop :=
  ∀ x, m = .error x → x.translated = true

section
variable {α β : Type}

theorem Translated.ok (a : α) : Translated (.ok a) := by
  intro x hx
  cases hx

theorem Translated.error {x : DynamicError} (h : x.translated = true) :
    Translated (.error x : Except DynamicError α) := by
  intro y hy
  cases hy
  exact h

theorem Translated.bind {m : Except DynamicError α} {f : α → Except DynamicError β}
    (hm : Translated m) (hf : ∀ a, Translated (f a)) : Translated (m >>= f) := by
  cases m with
  | error x => exact Translated.error (hm x rfl)
  | ok a => exact hf a

theorem Translated.validated (o : Option α) : Translated (validated o) := by
  cases o with
  | none => exact Translated.error rfl
  | some a => exact Translated.ok a

theorem Translated.mapM {f : α → Except DynamicError β} (hf : ∀ a, Translated (f a)) (l : List α) :
    Translated (l.mapM f) := by
  induction l with
  | nil => exact Translated.ok []
  | cons a l ih =>
      rw [List.mapM_cons]
      exact (hf a).bind fun b => ih.bind fun l' => Translated.ok _

theorem translated_getItem (key : String) (value : PyValue) : Translated (value.getItem key) := by
  unfold getItem
  split
  · split
    · exact Translated.ok _
    · exact Translated.error rfl
  · exact Translated.error rfl

theorem translated_iter (value : PyValue) : Translated value.iter := by
  unfold iter
  split
  · exact Translated.ok _
  · exact Translated.ok _
  · exact Translated.ok _
  · exact Translated.error rfl

theorem translated_enumOf (members : List (String × α)) (value : PyValue) :
    Translated (enumOf members value) := by
  unfold enumOf
  split
  · split
    · exact Translated.ok _
    · exact Translated.error rfl
  · exact Translated.error rfl

theorem translated_optionalEnumOf (members : List (String × α)) (value : PyValue) :
    Translated (optionalEnumOf members value) := by
  unfold optionalEnumOf
  split
  · exact Translated.ok _
  · exact (translated_enumOf members value).bind fun a => Translated.ok (some a)

end

theorem translated_parseMessage (message : PyValue) : Translated (parseMessage message) := by
  refine (translated_getItem _ _).bind fun role => (translated_enumOf _ _).bind fun role => ?_
  exact (translated_getItem _ _).bind fun content => (Translated.validated _).bind fun content =>
    Translated.ok _

theorem translated_get {value : PyValue} (h : value.isDict = true) (key : String)
    (default : PyValue) :
    Translated (value.get key default) := by
  unfold PyValue.isDict at h
  split at h
  · exact Translated.ok _
  · cases h

theorem translated_parseRequirements (pydantic : Pydantic) {requirementsRaw : PyValue}
    (h : requirementsRaw.isDict = true) :
      Translated (parseRequirements pydantic requirementsRaw) := by
  refine (translated_get h _ _).bind fun qualityTier =>
    (translated_get h _ _).bind fun latencyPreference => ?_
  refine (translated_getItem _ _).bind fun capability =>
    (translated_optionalEnumOf _ _).bind fun qualityTier => ?_
  refine (translated_get h _ _).bind fun cost => (translated_get h _ _).bind fun tokens => ?_
  refine (translated_optionalEnumOf _ _).bind fun latencyPreference =>
    (translated_get h _ _).bind fun toolUse => ?_
  exact (translated_get h _ _).bind fun structuredOutput => Translated.validated _

/-- A value without a `get` raises at the first one. -/
theorem parseRequirements_attributeError (pydantic : Pydantic) {requirementsRaw : PyValue}
    (h : requirementsRaw.isDict = false) :
      parseRequirements pydantic requirementsRaw = .error .attributeError := by
  unfold PyValue.isDict at h
  split at h
  · cases h
  · rename_i hnot
    cases requirementsRaw with
    | object members => exact absurd rfl (hnot members)
    | _ => rfl

/-- The body is a dictionary, and so is its entry for the requirements, unless it counts as
false. -/
def WellShaped (body : PyValue) : Prop :=
  ∃ members, body = .object members ∧
    ∀ requirements, lookup "requirements" members = some requirements →
    truthy requirements = true → isDict requirements = true

theorem isDict_orEmpty_iff (members : List (Str × PyValue)) :
    isDict (orEmpty ((lookup "requirements" members).getD .null)) = true ↔
      ∀ requirements, lookup "requirements" members = some requirements →
        truthy requirements = true →
        isDict requirements = true := by
  cases hrequirements : lookup "requirements" members with
  | none => simp [orEmpty, truthy, PyValue.isDict]
  | some requirements =>
      cases htruthy : truthy requirements <;> simp [orEmpty, htruthy, PyValue.isDict]

/-- **What a body makes the parser raise**: on a well shaped one only exceptions that the handlers
translate, on every other one an `AttributeError`. -/
theorem parse_translated_iff (pydantic : Pydantic) (body : PyValue) :
    (WellShaped body → Translated (parseInferenceRequest pydantic body)) ∧
      (¬ WellShaped body → parseInferenceRequest pydantic body = .error .attributeError) := by
  constructor
  · rintro ⟨members, rfl, hrequirements⟩
    have hdict : PyValue.isDict (.object members) = true := rfl
    have hraw := (isDict_orEmpty_iff members).mpr hrequirements
    show Translated (parseRequirements pydantic
        (orEmpty ((lookup "requirements" members).getD .null)) >>= _)
    refine (translated_parseRequirements pydantic hraw).bind fun requirements => ?_
    refine (translated_getItem _ _).bind fun messages => (translated_iter _).bind fun messages => ?_
    refine (Translated.mapM translated_parseMessage _).bind fun messages => ?_
    refine (translated_getItem _ _).bind fun applicationId =>
      (translated_get hdict _ _).bind fun conversationId => ?_
    refine (translated_get hdict _ _).bind fun idempotencyKey =>
      (translated_get hdict _ _).bind fun metadata => ?_
    exact Translated.validated _
  · intro hshape
    cases body with
    | object members =>
        have hraw : isDict (orEmpty ((lookup "requirements" members).getD .null)) = false := by
          rw [Bool.eq_false_iff, ne_eq, isDict_orEmpty_iff]
          exact fun hrequirements => hshape ⟨members, rfl, hrequirements⟩
        show (parseRequirements pydantic (orEmpty ((lookup "requirements" members).getD .null)) >>=
            _) = _
        rw [parseRequirements_attributeError pydantic hraw]
        rfl
    | _ => rfl

end ModelRouter
