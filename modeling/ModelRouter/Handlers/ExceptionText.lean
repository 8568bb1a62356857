import ModelRouter.Handlers.RequestMapping
import ModelRouter.Lib.Outcome

/-!
# The texts of the exceptions

The parser of `Handlers/RequestMapping`, with the text of each exception it raises: what `str(exc)`
is in the handlers.

* `Rendering` : how Python and pydantic write a value in a text;
* `validationText` : the text of a `ValidationError`, with an entry for each field that is rejected
  (`requestErrors_eq_nil_iff`);
* `Rendering.parseInferenceRequest` : the parser; without the texts it is the one of the handlers
  (`mapError_kind`).
-/

namespace ModelRouter
open Json PyValue Pydantic Outcome

/-! ## Exceptions -/

/-- An exception and its text. -/
structure Raised where
  kind : DynamicError
  text : String
deriving DecidableEq, Repr

section
variable {α : Type}

/-- The outcome, with a text for its exception. -/
def raising (text : DynamicError → String) (m : Except DynamicError α) : Except Raised α :=
  m.mapError fun x => ⟨x, text x⟩

@[simp] theorem kind_raising (text : DynamicError → String) (m : Except DynamicError α) :
    (raising text m).mapError Raised.kind = m := by
  cases m <;> rfl

end

/-! ## Values in a text -/

/-- `type(value)`, as the interpreter writes it. -/
def typeName : PyValue → String
  | .null => "NoneType"
  | .bool _ => "bool"
  | .number (.int _) => "int"
  | .number (.decimal _) => "decimal.Decimal"
  | .number (.float _) => "float"
  | .string _ => "str"
  | .array _ => "list"
  | .object _ => "dict"

/-- `type(value).__name__`. -/
def inputType : PyValue → String
  | .number (.decimal _) => "Decimal"
  | value => typeName value

def subscriptText : PyValue → String
  | .string _ => "string indices must be integers, not 'str'"
  | .array _ => "list indices must be integers or slices, not str"
  | value => "'" ++ typeName value ++ "' object is not subscriptable"

/-- The text of a `ValidationError`, from where its errors are and what they say. -/
def validationText (title : String) (errors : List (String × String)) : String :=
  toString errors.length ++
    (" validation error" ++ (if errors.length = 1 then "" else "s") ++ " for " ++ title ++
    String.join (errors.map fun error => "\n" ++ error.1 ++ "\n  " ++ error.2))

/-- How values are written: `repr`; the input of an error, which pydantic cuts short; the errors
about a rejected number, flag, amount or mapping; and what pydantic refers to for every error. -/
structure Rendering where
  repr : PyValue → String
  inputValue : PyValue → String
  fieldErrors : String → PyValue → List (String × String)
  documentation : String
  fieldErrors_ne : ∀ field value, fieldErrors field value ≠ []

namespace Rendering

variable (rendering : Rendering)

/-! ## The calls that raise -/

def get (key : String) (value : PyValue) (default : PyValue := .null) : Except Raised PyValue :=
  raising (fun _ => "'" ++ typeName value ++ "' object has no attribute 'get'")
    (value.get key default)

def getItem (key : String) (value : PyValue) : Except Raised PyValue :=
  raising (fun
    | .keyError key => "'" ++ key ++ "'"
    | _ => subscriptText value) (value.getItem key)

def iter (value : PyValue) : Except Raised (List PyValue) :=
  raising (fun _ => "'" ++ typeName value ++ "' object is not iterable") value.iter

/-- The call of the enumeration `enumeration`. -/
def enumOf {α : Type} (enumeration : String) (members : List (String × α)) (value : PyValue) :
    Except Raised α :=
  raising (fun _ => rendering.repr value ++ " is not a valid " ++ enumeration)
    (PyValue.enumOf members value)

def optionalEnumOf {α : Type} (enumeration : String) (members : List (String × α))
    (value : PyValue) :
    Except Raised (Option α) :=
  raising (fun _ => rendering.repr value ++ " is not a valid " ++ enumeration)
    (PyValue.optionalEnumOf members value)

/-- The model `title`, whose fields have these errors. -/
def validated {α : Type} (title : String) (errors : List (String × String)) (o : Option α) :
    Except Raised α :=
  raising (fun _ => validationText title errors) (ModelRouter.validated o)

/-! ## The errors of a field -/

/-- An error with its input. -/
def errorLine (message type inputValue inputType : String) : String :=
  message ++ " [type=" ++ type ++ ", input_value=" ++ inputValue ++ ", input_type=" ++ inputType ++
    "]\n    For further information visit " ++ rendering.documentation ++ "/v/" ++ type

/-- The message and the type of the error about a value that is not a text. -/
def stringError : PyValue → String × String
  | .string _ =>
      ("Input should be a valid string, unable to parse raw data as a unicode string",
        "string_unicode")
  | _ => ("Input should be a valid string", "string_type")

/-- What a field that is rejected adds to the errors. -/
def fieldError {α : Type} (errors : List (String × String)) (o : Option α) :
    List (String × String) :=
  if o.isSome then [] else errors

def strError (field : String) (value : PyValue) : List (String × String) :=
  [(field, rendering.errorLine (stringError value).1 (stringError value).2
    (rendering.inputValue value) (inputType value))]

/-- The errors of `RoutingRequirements`. -/
def requirementsErrors
    (pydantic : Pydantic) (capability maximumEstimatedCostUsd maximumOutputTokens requiresToolUse
    requiresStructuredOutput : PyValue) : List (String × String) :=
  fieldError (rendering.strError "capability" capability) (str capability) ++
    fieldError (rendering.fieldErrors "maximum_estimated_cost_usd" maximumEstimatedCostUsd)
      (optional pydantic.money maximumEstimatedCostUsd) ++
    fieldError (rendering.fieldErrors "maximum_output_tokens" maximumOutputTokens)
      (optional pydantic.positiveInt maximumOutputTokens) ++
    fieldError (rendering.fieldErrors "requires_tool_use" requiresToolUse)
      (pydantic.bool requiresToolUse) ++
    fieldError (rendering.fieldErrors "requires_structured_output" requiresStructuredOutput)
      (pydantic.bool requiresStructuredOutput)

/-- `_application_id_not_blank`, after the check of the type. -/
def applicationIdErrors (applicationId : PyValue) : List (String × String) :=
  match str applicationId with
  | none => rendering.strError "application_id" applicationId
  | some value =>
    if isBlank value then [("application_id",
      rendering.errorLine "Value error, application_id must not be blank"
      "value_error" (rendering.inputValue applicationId) (inputType applicationId))]
    else []

/-- The errors of `InferenceRequest`. -/
def requestErrors (applicationId : PyValue) (messages : List Message)
    (conversationId idempotencyKey metadata : PyValue) :
    List (String × String) :=
  rendering.applicationIdErrors applicationId ++
    (if messages.isEmpty then [("messages", rendering.errorLine
      "Tuple should have at least 1 item after validation, not 0" "too_short" "()" "tuple")]
        else []) ++
    fieldError (rendering.strError "conversation_id" conversationId)
      (optional str conversationId) ++
    fieldError (rendering.strError "idempotency_key" idempotencyKey)
      (optional str idempotencyKey) ++
    fieldError (rendering.fieldErrors "metadata" metadata) (strMapping metadata)

/-! ## The parser -/

def parseRequirements (pydantic : Pydantic) (requirementsRaw : PyValue) :
    Except Raised RoutingRequirements := do
  let qualityTier ← get "qualityTier" requirementsRaw
  let latencyPreference ← get "latencyPreference" requirementsRaw
  let capability ← getItem "capability" requirementsRaw
  let qualityTier ← rendering.optionalEnumOf "QualityTier" qualityTiers qualityTier
  let maximumEstimatedCostUsd ← get "maximumEstimatedCostUsd" requirementsRaw
  let maximumOutputTokens ← get "maximumOutputTokens" requirementsRaw
  let latencyPreference ← rendering.optionalEnumOf "LatencyPreference" latencyPreferences
    latencyPreference
  let requiresToolUse ← get "requiresToolUse" requirementsRaw (.bool false)
  let requiresStructuredOutput ← get "requiresStructuredOutput" requirementsRaw (.bool false)
  validated "RoutingRequirements"
    (rendering.requirementsErrors pydantic capability maximumEstimatedCostUsd
      maximumOutputTokens requiresToolUse requiresStructuredOutput)
    (validateRequirements pydantic capability qualityTier maximumEstimatedCostUsd
      maximumOutputTokens latencyPreference
      requiresToolUse requiresStructuredOutput)

def parseMessage (message : PyValue) : Except Raised Message := do
  let role ← rendering.enumOf "Role" roles (← getItem "role" message)
  let content ← getItem "content" message
  let content ← validated "Message" (rendering.strError "content" content) (str content)
  pure { role, content }

def parseInferenceRequest (pydantic : Pydantic) (body : PyValue) : Except Raised InferenceRequest :=
  do
  let requirementsRaw := (← get "requirements" body).orEmpty
  let requirements ← rendering.parseRequirements pydantic requirementsRaw
  let messages ← (← iter (← getItem "messages" body)).mapM rendering.parseMessage
  let applicationId ← getItem "applicationId" body
  let conversationId ← get "conversationId" body
  let idempotencyKey ← get "idempotencyKey" body
  let metadata := (← get "metadata" body).orEmpty
  validated "InferenceRequest"
    (rendering.requestErrors applicationId messages conversationId idempotencyKey metadata)
    (validateRequest applicationId messages requirements conversationId idempotencyKey metadata)

/-! ## Without the texts -/

variable {rendering} {pydantic : Pydantic}

theorem kind_parseRequirements (requirementsRaw : PyValue) :
    (rendering.parseRequirements pydantic requirementsRaw).mapError Raised.kind =
      ModelRouter.parseRequirements pydantic requirementsRaw := by
  simp only [parseRequirements, ModelRouter.parseRequirements, get, getItem, optionalEnumOf,
    validated, mapError_bind,
    kind_raising]

theorem kind_parseMessage (message : PyValue) :
    (rendering.parseMessage message).mapError Raised.kind = ModelRouter.parseMessage message := by
  simp only [parseMessage, ModelRouter.parseMessage, getItem, enumOf, validated, mapError_bind,
    kind_raising]
  rfl

/-- **The parser with texts is the parser of the handlers.** -/
theorem mapError_kind (body : PyValue) :
    (rendering.parseInferenceRequest pydantic body).mapError Raised.kind =
    ModelRouter.parseInferenceRequest pydantic body := by
  simp only [parseInferenceRequest, ModelRouter.parseInferenceRequest, get, getItem, iter,
    validated, mapError_bind,
    kind_raising, kind_parseRequirements, mapError_mapM, kind_parseMessage]

/-! ## The fields of an error -/

theorem fieldError_eq_nil_iff {α : Type} {errors : List (String × String)} (h : errors ≠ [])
    (o : Option α) :
    fieldError errors o = [] ↔ ∃ a, o = some a := by
  unfold fieldError
  cases o <;> simp [h]

theorem strError_ne (field : String) (value : PyValue) : rendering.strError field value ≠ [] := by
  simp [strError]

theorem applicationIdErrors_eq_nil_iff (applicationId : PyValue) :
    rendering.applicationIdErrors applicationId = [] ↔
    ∃ value, str applicationId = some value ∧ isBlank value = false := by
  unfold applicationIdErrors
  split
  · rename_i hnone
    simp [hnone, strError]
  · rename_i value hvalue
    split <;> simp_all

/-- So does one of `InferenceRequest`. -/
theorem requestErrors_eq_nil_iff (applicationId : PyValue) (messages : List Message)
    (requirements : RoutingRequirements) (conversationId idempotencyKey metadata : PyValue) :
    rendering.requestErrors applicationId messages conversationId idempotencyKey metadata = [] ↔
      ∃ request, validateRequest applicationId messages requirements conversationId idempotencyKey
        metadata = some request := by
  simp only [requestErrors, List.append_eq_nil_iff, fieldError_eq_nil_iff (strError_ne _ _),
    fieldError_eq_nil_iff (rendering.fieldErrors_ne _ _), applicationIdErrors_eq_nil_iff]
  unfold validateRequest
  constructor
  · rintro ⟨⟨⟨⟨⟨value, hvalue, hblank⟩, hmessages⟩, conversation, hconversation⟩, key, hkey⟩,
      mapping, hmapping⟩
    have hne : messages ≠ [] := by
      rintro rfl
      simp at hmessages
    simp [hvalue, hconversation, hkey, hmapping, hne, hblank]
  · rintro ⟨request, h⟩
    simp only [Option.bind_eq_bind, Option.bind_eq_some_iff] at h
    obtain ⟨value, hvalue, conversation, hconversation, key, hkey, mapping, hmapping, hrequest⟩ := h
    split at hrequest
    · rename_i hvalid
      refine ⟨⟨⟨⟨⟨value, hvalue, hvalid.2⟩, ?_⟩, _, hconversation⟩, _, hkey⟩, _, hmapping⟩
      simp [hvalid.1]
    · cases hrequest

end Rendering

end ModelRouter
