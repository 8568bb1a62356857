import ModelRouter.Handlers.RequestMapping

/-!
# The POST handlers

The two POST routes receive a body in the same way: one that is too large, or is not JSON, or fails
validation, is answered 400; a request goes to the route's service. An exception that they do not
translate is answered 500 by `dispatch`. `malformed_rejected_iff` says of which bodies that happens.
-/

namespace ModelRouter
open Json

/-- A response: what a service answers, or one of the documented errors. -/
inductive HttpResponse (ρ : Type) where
  | served (response : ρ)
  | error (statusCode : Nat) (requestId errorCode message : String)
deriving DecidableEq, Repr

/-- The text of a body: its length in UTF-8, and its value if it is JSON. -/
structure RequestBody where
  bytes : Nat
  json : Option JsonValue

inductive PostRoute where
  | inference | routesEvaluate
deriving DecidableEq, Repr

/-- `services` answers a request of either route, by an invocation or an evaluation. -/
structure ApiHandler (ρ : Type) where
  services : PostRoute → InferenceRequest → ρ
  pydantic : Pydantic
  maxRequestBodyBytes : Nat := 256 * 1024
  /-- How deep a body may nest for the stack of the interpreter. -/
  nestingLimit : Nat

namespace ApiHandler

variable {ρ : Type} (api : ApiHandler ρ)

def invalidRequest (requestId message : String) : HttpResponse ρ :=
  .error 400 requestId "INVALID_REQUEST" message

/-- `parse_json_body`, with `JSONDecodeError` for a text that is not JSON. -/
def decodeBody (body : RequestBody) : Except DynamicError PyValue :=
  match body.json with
  | none => .error .jsonDecodeError
  | some json => parseJsonBody api.nestingLimit json

/-- `_parse_body_or_400`: the parsed body and the error response; the body is `None` where there is
an error. -/
def parseBodyOr400 (requestId : String) (body : RequestBody) :
    Except DynamicError (PyValue × Option (HttpResponse ρ)) :=
  if api.maxRequestBodyBytes < body.bytes then
    .ok (.null, some (invalidRequest requestId "Request body exceeds the maximum allowed size."))
  else match api.decodeBody body with
    | .ok value => .ok (value, none)
    | .error .jsonDecodeError | .error .typeError =>
      .ok (.null, some (invalidRequest requestId "Request body is not valid JSON."))
    | .error x => .error x

/-- The body of either handler. -/
def handleBody (service : InferenceRequest → ρ) (requestId : String) (body : RequestBody) :
    Except DynamicError (HttpResponse ρ) := do
  let (value, error) ← api.parseBodyOr400 requestId body
  match error, value with
  | some response, _ => .ok response
  | none, .null => .error .assertionError
  | none, value => match parseInferenceRequest api.pydantic value with
    | .error x =>
        if x.translated then .ok (invalidRequest requestId "Request failed validation.")
          else .error x
    | .ok request => .ok (.served (service request))

def handleInference (requestId : String) (body : RequestBody) :
    Except DynamicError (HttpResponse ρ) :=
  api.handleBody (api.services .inference) requestId body

def handleRoutesEvaluate (requestId : String) (body : RequestBody) :
    Except DynamicError (HttpResponse ρ) :=
  api.handleBody (api.services .routesEvaluate) requestId body

/-- `dispatch`, of a POST route. -/
def dispatch (route : PostRoute) (requestId : String) (body : RequestBody) : HttpResponse ρ :=
  let handled := match route with
    | .inference => api.handleInference requestId body
    | .routesEvaluate => api.handleRoutesEvaluate requestId body
  match handled with
  | .ok response => response
  | .error _ => .error 500 requestId "INTERNAL_ERROR" "An unexpected error occurred."

variable {api} {requestId : String} {route : PostRoute}

theorem dispatch_eq (body : RequestBody) : api.dispatch route requestId body =
    match api.handleBody (api.services route) requestId body with
    | .ok response => response
    | .error _ => .error 500 requestId "INTERNAL_ERROR" "An unexpected error occurred." := by
  cases route <;> rfl

/-! ## What a body is answered -/

/-- The body becomes a request, which its service answers, or it is answered 400. -/
def Received (api : ApiHandler ρ) (route : PostRoute) (requestId : String) (body : RequestBody) :
    Prop :=
  (∃ value request, api.decodeBody body = .ok value ∧
    parseInferenceRequest api.pydantic value = .ok request ∧
    api.dispatch route requestId body = .served (api.services route request)) ∨
  ∃ message, api.dispatch route requestId body = .error 400 requestId "INVALID_REQUEST" message

/-- The answer to a body that no handler expects. -/
def Unexpected (api : ApiHandler ρ) (route : PostRoute) (requestId : String) (body : RequestBody) :
    Prop :=
  api.dispatch route requestId body =
    .error 500 requestId "INTERNAL_ERROR" "An unexpected error occurred."

theorem not_received_of_unexpected {body : RequestBody} (h : api.Unexpected route requestId body) :
    ¬ api.Received route requestId body := by
  rintro (⟨value, request, -, -, hserved⟩ | ⟨message, hrejected⟩)
  · exact absurd (h.symm.trans hserved) (by simp)
  · exact absurd (h.symm.trans hrejected) (by simp)

theorem received_of_tooLarge {body : RequestBody} (h : api.maxRequestBodyBytes < body.bytes) :
    api.Received route requestId body := by
  refine Or.inr ⟨"Request body exceeds the maximum allowed size.", ?_⟩
  rw [dispatch_eq, handleBody, parseBodyOr400, if_pos h]
  rfl

variable {body : RequestBody} (hsize : ¬ api.maxRequestBodyBytes < body.bytes)

include hsize

theorem handleBody_decoded {value : PyValue} (service : InferenceRequest → ρ)
    (h : api.decodeBody body = .ok value)
    (hnull : value ≠ .null) : api.handleBody service requestId body =
      match parseInferenceRequest api.pydantic value with
      | .error x =>
          if x.translated then .ok (invalidRequest requestId "Request failed validation.")
            else .error x
      | .ok request => .ok (.served (service request)) := by
  rw [handleBody, parseBodyOr400, if_neg hsize, h]
  cases value with
  | null => exact absurd rfl hnull
  | _ => rfl

/-- A body of the right shape becomes a request or is answered 400. -/
theorem received_of_wellShaped {value : PyValue} (h : api.decodeBody body = .ok value)
    (hshape : WellShaped value) :
    api.Received route requestId body := by
  have hnull : value ≠ .null := by
    obtain ⟨members, rfl, -⟩ := hshape
    simp
  have hhandled := @handleBody_decoded _ api requestId body hsize value (api.services route) h hnull
  have htranslated := (parse_translated_iff api.pydantic value).1 hshape
  cases hparsed : parseInferenceRequest api.pydantic value with
  | ok request =>
      rw [hparsed] at hhandled
      exact Or.inl ⟨value, request, h, hparsed, by rw [dispatch_eq, hhandled]⟩
  | error x =>
      rw [hparsed] at hhandled
      dsimp only at hhandled
      rw [if_pos (htranslated x hparsed)] at hhandled
      exact Or.inr ⟨_, by rw [dispatch_eq, hhandled]; rfl⟩

/-- Any other body is answered 500. -/
theorem unexpected_of_not_wellShaped {value : PyValue} (h : api.decodeBody body = .ok value)
    (hshape : ¬ WellShaped value) : api.Unexpected route requestId body := by
  unfold Unexpected
  rw [dispatch_eq]
  by_cases hnull : value = .null
  · rw [handleBody, parseBodyOr400, if_neg hsize, h, hnull]
    rfl
  · rw [handleBody_decoded hsize _ h hnull, (parse_translated_iff api.pydantic value).2 hshape]
    rfl

/-- So is one whose nesting or whose numbers `json.loads` cannot follow. -/
theorem unexpected_of_unreadable {json : JsonValue} (hjson : body.json = some json)
    (h : ¬ (json.depth ≤ api.nestingLimit ∧ ∀ n ∈ json.numbers, n.Readable)) :
    api.Unexpected route requestId body := by
  rw [← parseJsonBody_ok_iff] at h
  unfold Unexpected
  rw [dispatch_eq, handleBody, parseBodyOr400, if_neg hsize, decodeBody, hjson]
  dsimp only
  cases hparsed : parseJsonBody api.nestingLimit json with
  | ok value => exact absurd ⟨value, hparsed⟩ h
  | error x =>
      rcases parseJsonBody_error hparsed with rfl | rfl | rfl <;> rfl

omit hsize

/-- **Which bodies are received**, as a request or with a 400; the others are answered 500. A body
that fits is received if `json.loads` can read it, and it and its requirements are objects; the
parser raises nothing else that the handlers do not translate. -/
theorem malformed_rejected_iff (api : ApiHandler ρ) (route : PostRoute) (requestId : String)
    (bytes : Nat)
    (json : JsonValue) :
    (api.Received route requestId { bytes := bytes, json := some json } ↔
      api.maxRequestBodyBytes < bytes ∨
      (json.depth ≤ api.nestingLimit ∧ ∀ n ∈ json.numbers, n.Readable) ∧
        ∀ value, parseJsonBody api.nestingLimit json = .ok value → WellShaped value) ∧
    (¬ api.Received route requestId { bytes := bytes, json := some json } →
      api.Unexpected route requestId { bytes := bytes, json := some json }) ∧
    (∀ value, WellShaped value ↔ Translated (parseInferenceRequest api.pydantic value)) := by
  have hparser : ∀ value, WellShaped value ↔
      Translated (parseInferenceRequest api.pydantic value) := by
    intro value
    refine ⟨(parse_translated_iff api.pydantic value).1, fun htranslated => ?_⟩
    by_contra hshape
    have hraised := htranslated _ ((parse_translated_iff api.pydantic value).2 hshape)
    cases hraised
  have hcases : (api.maxRequestBodyBytes < bytes ∨
      (json.depth ≤ api.nestingLimit ∧ ∀ n ∈ json.numbers, n.Readable) ∧
        ∀ value, parseJsonBody api.nestingLimit json = .ok value → WellShaped value) ∧
          api.Received route requestId { bytes := bytes, json := some json } ∨
      ¬ (api.maxRequestBodyBytes < bytes ∨
        (json.depth ≤ api.nestingLimit ∧ ∀ n ∈ json.numbers, n.Readable) ∧
        ∀ value, parseJsonBody api.nestingLimit json = .ok value → WellShaped value) ∧
          api.Unexpected route requestId { bytes := bytes, json := some json } := by
    by_cases hsize : api.maxRequestBodyBytes < bytes
    · exact Or.inl ⟨Or.inl hsize, received_of_tooLarge hsize⟩
    · by_cases hreadable : json.depth ≤ api.nestingLimit ∧ ∀ n ∈ json.numbers, n.Readable
      · obtain ⟨value, hvalue⟩ := (parseJsonBody_ok_iff _ _).mpr hreadable
        by_cases hshape : WellShaped value
        · refine Or.inl ⟨Or.inr ⟨hreadable, fun value' hvalue' => ?_⟩,
            received_of_wellShaped hsize hvalue hshape⟩
          rw [hvalue] at hvalue'
          cases hvalue'
          exact hshape
        · refine Or.inr ⟨?_, unexpected_of_not_wellShaped hsize hvalue hshape⟩
          rintro (hlarge | ⟨-, hall⟩)
          · exact hsize hlarge
          · exact hshape (hall value hvalue)
      · refine Or.inr ⟨?_, unexpected_of_unreadable hsize rfl hreadable⟩
        rintro (hlarge | ⟨hread, -⟩)
        · exact hsize hlarge
        · exact hreadable hread
  rcases hcases with ⟨hcondition, hreceived⟩ | ⟨hcondition, hunexpected⟩
  · exact ⟨iff_of_true hreceived hcondition, fun hnot => absurd hreceived hnot, hparser⟩
  · exact ⟨iff_of_false (not_received_of_unexpected hunexpected) hcondition, fun _ =>
      hunexpected, hparser⟩

end ApiHandler

/-! ## Bodies -/

namespace Scenario

def api : ApiHandler Unit where
  services _ _ := ()
  pydantic := .strict
  nestingLimit := 100

/-- A JSON array has no `get`, and is answered 500. -/
theorem array_unexpected : api.dispatch .inference "req" { bytes := 2, json := some (.array []) } =
    .error 500 "req" "INTERNAL_ERROR" "An unexpected error occurred." := rfl

/-- A body without messages is answered 400. -/
example : api.dispatch .inference "req" { bytes := 2, json := some (.object []) } =
    .error 400 "req" "INVALID_REQUEST" "Request failed validation." := rfl

/-- A message and a capability are enough. -/
example : api.dispatch .inference "req" { bytes := 100, json := some (.object
    [(.text "applicationId", .string (.text "app")),
     (.text "requirements", .object [(.text "capability", .string (.text "chat"))]),
     (.text "messages", .array [.object [(.text "role", .string (.text "user")),
       (.text "content", .string (.text "hello"))]])]) } = .served () := by decide +kernel

end Scenario

end ModelRouter
