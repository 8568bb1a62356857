import ModelRouter.Handlers.ApiHandler
import ModelRouter.Handlers.RejectionText
import ModelRouter.Shared.StructuredLogging

/-!
# What a request leaves in the log

The records of `dispatch`, of a POST route, and their lines. A body that fails validation is logged
with the text of the exception, and so a content that is not a text is logged with it: the lines of
two rejected bodies that differ only in the contents of their messages are the same exactly where
pydantic shows the contents alike (`dispatchLines_eq_iff`).
-/

namespace ModelRouter
open Json PyValue

namespace PostRoute

def resource : PostRoute → String
  | inference => "/v1/inference"
  | routesEvaluate => "/v1/routes/evaluate"

/-- How the record of a rejected request begins. -/
def rejection : PostRoute → String
  | inference => "Invalid inference request: "
  | routesEvaluate => "Invalid route-evaluation request: "

end PostRoute

/-- What `dispatch` reads of an event beside its route and its body. -/
structure RequestContext where
  requestId : String
  callerPrincipalArn : String := "none"

/-- `log_extra` -/
def RequestContext.logExtra (context : RequestContext) (route : PostRoute) :
    List (String × ExtraValue) :=
  [("request_id", .text context.requestId), ("http_method", .text "POST"),
    ("resource", .text route.resource),
    ("caller_principal_arn", .text context.callerPrincipalArn)]

/-- The record of a body that is answered 400. -/
def invalidRecord (context : RequestContext) (message : String) : LogRecord where
  levelname := "INFO"
  message := message
  extra := [("request_id", .text context.requestId), ("error_code", .text "INVALID_REQUEST")]

/-- The handlers, with what their log is made of: the texts of a malformed body and of a traceback,
the records of a service that is called, and the status of its answer. -/
structure RequestLog (ρ : Type) extends ApiHandler ρ where
  rendering : Rendering
  formatter : JsonFormatter
  /-- When the records of a request are created. -/
  timestamp : Nat → String
  decodeError : RequestBody → String
  traceback : PostRoute → RequestBody → String
  serviceRecords : PostRoute → InferenceRequest → List LogRecord
  statusCode : ρ → Nat

namespace RequestLog

variable {ρ : Type} (log : RequestLog ρ)

/-! ## Records -/

/-- The records of `_parse_body_or_400`. -/
def parseBodyRecords (context : RequestContext) (body : RequestBody) : List LogRecord :=
  if log.maxRequestBodyBytes < body.bytes then []
  else match log.decodeBody body with
    | .error .jsonDecodeError | .error .typeError =>
      [invalidRecord context ("Malformed request body: " ++ log.decodeError body)]
    | _ => []

/-- The records of either handler. -/
def handlerRecords (route : PostRoute) (context : RequestContext) (body : RequestBody) :
    List LogRecord :=
  log.parseBodyRecords context body ++
    match log.parseBodyOr400 context.requestId body with
    | .ok (.null, none) => []
    | .ok (value, none) => match log.rendering.parseInferenceRequest log.pydantic value with
      | .error x =>
          if x.kind.translated then [invalidRecord context (route.rejection ++ x.text)] else []
      | .ok request => log.serviceRecords route request
    | _ => []

/-- The record of an exception that no handler translates. -/
def unhandledRecords (route : PostRoute) (context : RequestContext) (body : RequestBody) :
    List LogRecord :=
  match log.handleBody (log.services route) context.requestId body with
  | .ok _ => []
  | .error _ => [
    { levelname := "ERROR"
      message := "Unhandled error processing request"
      extra := context.logExtra route
      exception := some (log.traceback route body) }]

def responseStatus : HttpResponse ρ → Nat
  | .served response => log.statusCode response
  | .error statusCode _ _ _ => statusCode

def completedRecord (route : PostRoute) (context : RequestContext) (response : HttpResponse ρ) :
    LogRecord where
  levelname := "INFO"
  message := "Request completed"
  extra := context.logExtra route ++ [("status_code", .int (log.responseStatus response))]

/-- The records of `dispatch`. -/
def dispatchRecords (route : PostRoute) (context : RequestContext) (body : RequestBody) :
    List LogRecord :=
  log.handlerRecords route context body ++ log.unhandledRecords route context body ++
    [log.completedRecord route context (log.dispatch route context.requestId body)]

/-- The lines of `dispatch`. -/
def dispatchLines (route : PostRoute) (context : RequestContext) (body : RequestBody) :
    List String :=
  (log.dispatchRecords route context body).zipIdx.map fun record =>
    log.formatter.format (log.timestamp record.2) record.1

/-! ## Rejected bodies -/

/-- The body is read, and fails validation. -/
structure Rejected (body : RequestBody) (value : PyValue) : Prop where
  fits : ¬ log.maxRequestBodyBytes < body.bytes
  decoded : log.decodeBody body = .ok value
  rejected : ∃ x, ModelRouter.parseInferenceRequest log.pydantic value = .error x ∧
    x.translated = true

variable {log} {route : PostRoute} {context : RequestContext} {body body' : RequestBody}
  {value value' : PyValue}

theorem Rejected.ne_null (h : log.Rejected body value) : value ≠ .null := by
  rintro rfl
  obtain ⟨x, hx, htranslated⟩ := h.rejected
  cases hx
  cases htranslated

theorem Rejected.raised (h : log.Rejected body value) :
    ∃ x, log.rendering.parseInferenceRequest log.pydantic value = .error x ∧
      x.kind.translated = true := by
  obtain ⟨kind, hkind, htranslated⟩ := h.rejected
  have hparser : (log.rendering.parseInferenceRequest log.pydantic value).mapError Raised.kind =
      ModelRouter.parseInferenceRequest log.pydantic value := Rendering.mapError_kind value
  rw [← hparser] at hkind
  cases hparse : log.rendering.parseInferenceRequest log.pydantic value with
  | ok request =>
      rw [hparse] at hkind
      cases hkind
  | error x =>
      rw [hparse] at hkind
      obtain rfl := Except.error.inj hkind
      exact ⟨x, rfl, htranslated⟩

theorem Rejected.handled (h : log.Rejected body value) :
    log.handleBody (log.services route) context.requestId body =
      .ok (ApiHandler.invalidRequest context.requestId "Request failed validation.") := by
  obtain ⟨x, hx, htranslated⟩ := h.rejected
  rw [ApiHandler.handleBody_decoded h.fits _ h.decoded h.ne_null, hx]
  simp [htranslated]

/-- The records of a body that fails validation: the text of the exception is in the first one. -/
theorem Rejected.records (h : log.Rejected body value) {x : Raised}
    (hx : log.rendering.parseInferenceRequest log.pydantic value = .error x) :
    log.dispatchRecords route context body = [invalidRecord context (route.rejection ++ x.text),
      log.completedRecord route context
        (.error 400 context.requestId "INVALID_REQUEST" "Request failed validation.")] := by
  obtain ⟨y, hy, htranslated⟩ := h.raised
  obtain rfl : y = x := Except.error.inj (hy.symm.trans hx)
  have hread : log.parseBodyOr400 context.requestId body = .ok (value, none) := by
    rw [ApiHandler.parseBodyOr400, if_neg h.fits, h.decoded]
  have hhandler : log.handlerRecords route context body =
      [invalidRecord context (route.rejection ++ y.text)] := by
    unfold handlerRecords parseBodyRecords
    rw [if_neg h.fits, h.decoded, hread]
    have hnull := h.ne_null
    cases value with
    | null => exact absurd rfl hnull
    | _ => simp [hx, htranslated]
  have hunhandled : log.unhandledRecords route context body = [] := by
    rw [unhandledRecords, h.handled]
  rw [dispatchRecords, hhandler, hunhandled, ApiHandler.dispatch_eq, h.handled]
  rfl

/-- The lines of a rejected body say what its exception says. -/
theorem Rejected.lines_eq_iff (h : log.Rejected body value) (h' : log.Rejected body' value')
    {x x' : Raised} (hx : log.rendering.parseInferenceRequest log.pydantic value = .error x)
    (hx' : log.rendering.parseInferenceRequest log.pydantic value' = .error x') :
    log.dispatchLines route context body = log.dispatchLines route context body' ↔
    x.text = x'.text := by
  rw [dispatchLines, dispatchLines, h.records hx, h'.records hx']
  have hline := log.formatter.format_message_iff (log.timestamp 0) (invalidRecord context "")
      (route.rejection ++ x.text)
    (route.rejection ++ x'.text)
  rw [String.append_right_inj] at hline
  rw [← hline]
  simp [List.zipIdx, invalidRecord]

/-- **When the lines of two rejected bodies are the same**, that differ only in the contents of
their messages: pydantic comes to a content that is not a text in both of them, and shows it alike,
or in none of them. -/
theorem dispatchLines_eq_iff (log : RequestLog ρ) (route : PostRoute) (context : RequestContext)
    {body body' : RequestBody} {value value' : PyValue} (h : log.Rejected body value)
    (h' : log.Rejected body' value') (hsame : SameBody value value') :
    log.dispatchLines route context body = log.dispatchLines route context body' ↔
      (contentReached log.pydantic value).map log.rendering.shown =
        (contentReached log.pydantic value').map log.rendering.shown := by
  obtain ⟨x, hx, -⟩ := h.raised
  obtain ⟨x', hx', -⟩ := h'.raised
  exact (h.lines_eq_iff h' hx hx').trans (Rendering.text_eq_iff hsame hx hx')

end RequestLog

namespace Scenario

/-- `repr` of plain texts and numbers, and of lists of them. -/
def plainRepr : PyValue → String
  | .null => "None"
  | .bool b => if b then "True" else "False"
  | .number (.int n) => toString n
  | .string (.text s) => "'" ++ s ++ "'"
  | .array [.string (.text s)] => "['" ++ s ++ "']"
  | _ => "..."

def plainRendering : Rendering where
  repr := plainRepr
  inputValue := plainRepr
  documentation := "/".intercalate ["https:", "", "errors.pydantic.dev", "2.9"]
  fieldErrors field _ := [(field, "Input should be valid")]
  fieldErrors_ne _ _ := by simp

def requestLog : RequestLog Unit := { api with
  rendering := plainRendering
  formatter := ⟨JsonFormatter.allowedExtraKeys, .refl _⟩
  timestamp n := "2024-01-01T00:00:0" ++ toString n ++ "+00:00"
  decodeError _ := "Expecting value: line 1 column 1 (char 0)"
  traceback _ _ := "Traceback (most recent call last):"
  serviceRecords _ _ := []
  statusCode _ := 200 }

/-- A request whose content is a list with a text in it. -/
def asking (text : String) : RequestBody where
  bytes := 120
  json := some (.object
    [(.text "applicationId", .string (.text "app")),
     (.text "requirements", .object [(.text "capability", .string (.text "chat"))]),
     (.text "messages", .array [.object [(.text "role", .string (.text "user")),
       (.text "content", .array [.string (.text text)])]])])

def asked (text : String) : PyValue := .object
  [(.text "applicationId", .string (.text "app")),
   (.text "requirements", .object [(.text "capability", .string (.text "chat"))]),
   (.text "messages", .array [.object [(.text "role", .string (.text "user")),
     (.text "content", .array [.string (.text text)])]])]

theorem asking_rejected (text : String) : requestLog.Rejected (asking text) (asked text) where
  fits := by show ¬ 256 * 1024 < 120; decide
  decoded := rfl
  rejected := ⟨.validationError, rfl, rfl⟩

theorem asked_same (text text' : String) : SameBody (asked text) (asked text') := by
  refine .messages (.cons ⟨rfl, .inl rfl⟩
    (.cons ⟨rfl, .inl rfl⟩ (.cons ⟨rfl, .inr ⟨rfl, ?_⟩⟩ .nil)))
  refine .items (.cons (.content (.cons ⟨rfl, .inl rfl⟩ (.cons ⟨rfl, .inr ⟨rfl, trivial⟩⟩ .nil)))
    .nil)

theorem asked_reached (text : String) :
    contentReached requestLog.pydantic (asked text) = some (.array [.string (.text text)]) := rfl

/-- Two contents that are no texts, and two different logs. -/
theorem content_logged : requestLog.Rejected (asking "alpha") (asked "alpha") ∧
    requestLog.Rejected (asking "beta") (asked "beta") ∧ SameBody (asked "alpha") (asked "beta") ∧
    requestLog.dispatchLines .inference ⟨"req", "none"⟩ (asking "alpha") ≠
      requestLog.dispatchLines .inference ⟨"req", "none"⟩ (asking "beta") := by
  refine ⟨asking_rejected _, asking_rejected _, asked_same _ _, fun hlines => ?_⟩
  have htexts := ((asking_rejected "alpha").lines_eq_iff (asking_rejected "beta")
    (Rendering.parse_content (asked_reached "alpha"))
      (Rendering.parse_content (asked_reached "beta"))).mp hlines
  have hshown := (Rendering.contentText_inj _ _).mp htexts
  simp [Rendering.shown, requestLog, plainRendering, plainRepr] at hshown

theorem content_shown : requestLog.dispatchLines .inference ⟨"req", "none"⟩ (asking "alpha") =
      requestLog.dispatchLines .inference ⟨"req", "none"⟩ (asking "beta") ↔
    (contentReached requestLog.pydantic (asked "alpha")).map plainRendering.shown =
      (contentReached requestLog.pydantic (asked "beta")).map plainRendering.shown :=
  requestLog.dispatchLines_eq_iff .inference ⟨"req", "none"⟩ (asking_rejected "alpha")
    (asking_rejected "beta") (asked_same "alpha" "beta")

end Scenario

end ModelRouter
