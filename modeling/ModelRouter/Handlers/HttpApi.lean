import ModelRouter.Handlers.ResponseBodies
import ModelRouter.Lib.Base64
import ModelRouter.Lib.JsonReader

/-!
# The HTTP interface

`dispatch` takes an event of the API gateway to its handler. It is a program over `ApiPorts`: the
ports of the use cases, and the look-up of an audit record.

* `extractBody`, `parseBodyOr400` : the dictionary of a body, that may be encoded in base64;
* `handleInference`, `handleRoutesEvaluate`, `handleModels`, `handleGetDecision` : the handlers;
* `dispatch` : the handler of a route, and 500 for what it does not catch.
-/

namespace ModelRouter
open Effects Prog Arith Json

/-! ## Events -/

/-- An event of the API gateway; a context without an identity has no caller. -/
structure ProxyEvent where
  httpMethod : String := ""
  resource : String := ""
  body : Option String := none
  isBase64Encoded : Bool := false
  pathParameters : Option (List (String × String)) := none
  queryStringParameters : Option (List (String × String)) := none
  requestId : Option String := none
deriving DecidableEq

def ProxyEvent.requestIdText (event : ProxyEvent) : String := event.requestId.getD "unknown"

/-- `(parameters or {}).get(name)` -/
def parameter (parameters : Option (List (String × String))) (name : String) : Option String :=
  ((parameters.getD []).find? (·.1 = name)).map (·.2)

/-- `base64.b64decode(body).decode("utf-8")`; every failure is a `ValueError`. -/
def decodeBase64Text (body : String) : Except DynamicError String :=
  if body.toList.all fun c => c.toNat < 128 then
    match Base64.decode body.toList with
    | .error _ => .error .valueError
    | .ok bytes => match String.fromUTF8? ⟨bytes.toArray⟩ with
      | some text => .ok text
      | none => .error .valueError
  else .error .valueError

/-- `_extract_body` -/
def extractBody (event : ProxyEvent) : Except DynamicError String :=
  let body := event.body.getD ""
  if event.isBase64Encoded then decodeBase64Text body else .ok body

/-! ## Responses -/

structure HttpReply where
  statusCode : Nat
  headers : List (String × String) := [("Content-Type", "application/json")]
  body : Body

def respond (statusCode : Nat) (body : Body) : HttpReply := { statusCode, body }

def respondError (statusCode : Nat) (requestId errorCode message : String) : HttpReply :=
  respond statusCode (errorResponseBody requestId errorCode message).json

/-! ## Bodies -/

section
local instance neZero_ten : NeZero 10 := ⟨by decide⟩

/-- The literal of a number as it is written. -/
def literalOf (l : Lexeme) : NumberLiteral :=
  let digits (text : List Char) : List (Fin 10) := text.map fun c => Fin.ofNat 10 (c.toNat - 48)
  let exponent : Int := digitsValue (digits l.exponent)
  { negative := l.negative
    digits := digits l.whole
    fraction := if l.fraction = [] then none else some (digits l.fraction)
    exponent := if l.exponent = [] then none
      else some (if l.exponentNegative then -exponent else exponent) }

end

def numberOf : Numeral → JsonNumber
  | .lexeme l => .literal (literalOf l)
  | .nan => .constant .nan
  | .infinity negative => .constant (if negative then .negInfinity else .infinity)

/-- `json.loads` with decimals for floats, for an interpreter whose stack allows `nestingLimit`
nested values. -/
def jsonLoads (nestingLimit : Nat) : Reader PyNumber DynamicError where
  convert numeral := convertNumber (numberOf numeral)
  limit := nestingLimit
  malformed := .jsonDecodeError
  tooDeep := .recursionError

/-! ## The services -/

inductive ApiPort where
  | ofPort (port : Port)
  | getDecision (decisionId : String)

@[reducible] def ApiPort.Answer : ApiPort → Type
  | .ofPort port => port.Answer
  | .getDecision _ => Option AuditRecord

abbrev ApiPorts : Sig := { Call := ApiPort, Answer := ApiPort.Answer, Exc := PyException }

/-- A use case of a service, called from a handler. -/
def runUseCase {α : Type} (useCase : Prog Ports α) : Prog ApiPorts α :=
  @Prog.interpret Ports α ApiPorts id (fun port => @Prog.tryPerform ApiPorts (.ofPort port)) useCase

/-- What a dynamic value raises reaches `dispatch` as an exception. -/
def DynamicError.exception : DynamicError → PyException
  | jsonDecodeError => .other "JSONDecodeError"
  | recursionError => .other "RecursionError"
  | invalidOperation => .invalidOperation
  | assertionError => .assertionError ""
  | attributeError => .other "AttributeError"
  | typeError => .other "TypeError"
  | valueError => .other "ValueError"
  | validationError => .other "ValidationError"
  | keyError _ => .other "KeyError"

structure HandlerServices where
  catalogueVersion : Nat
  models : List ListedModel
  routeService : RouteEvaluationService
  orchestrator : InvocationOrchestrator
  pydantic : Pydantic
  nestingLimit : Nat
  maxRequestBodyBytes : Nat := 256 * 1024

namespace HandlerServices

variable (services : HandlerServices)

/-- `_parse_body_or_400`: the parsed body, or the response that rejects it. -/
def parseBodyOr400 (event : ProxyEvent) (requestId : String) :
    Except DynamicError (PyValue ⊕ HttpReply) := do
  let rawBody ← extractBody event
  if services.maxRequestBodyBytes < rawBody.utf8ByteSize then
    .ok (.inr (respondError 400 requestId "INVALID_REQUEST"
      "Request body exceeds the maximum allowed size."))
  else match (jsonLoads services.nestingLimit).read rawBody with
    | .ok body => .ok (.inl body)
    | .error .jsonDecodeError | .error .typeError =>
      .ok (.inr (respondError 400 requestId "INVALID_REQUEST" "Request body is not valid JSON."))
    | .error x => .error x

/-- The request of an event, or the response that rejects it. -/
def parseRequestOr400 (event : ProxyEvent) (requestId : String) :
    Except DynamicError (InferenceRequest ⊕ HttpReply) := do
  match ← services.parseBodyOr400 event requestId with
  | .inr response => .ok (.inr response)
  | .inl .null => .error .assertionError
  | .inl body => match parseInferenceRequest services.pydantic body with
    | .ok request => .ok (.inl request)
    | .error x =>
      if x.translated then .ok (.inr (respondError 400 requestId "INVALID_REQUEST" "Request failed validation."))
      else .error x

/-! ## The handlers -/

def handleHealth : HttpReply := respond 200 (Body.dictionary [("status", Body.text "ok")])

def handleReady : HttpReply := respond 200 (Body.dictionary
  [("status", Body.text "ready"), ("modelCatalogueVersion", Body.nat services.catalogueVersion)])

/-- The response to a request that has been served. -/
def inferenceReply (requestId : String) : InferenceResponse → HttpReply
  | .served result => respond 200 (serializeInferenceResult result requestId)
  | .error statusCode body => respond statusCode body.json

def handleInference (event : ProxyEvent) (requestId : String) : Prog ApiPorts HttpReply :=
  match services.parseRequestOr400 event requestId with
  | .error x => raise x.exception
  | .ok (.inr response) => ret response
  | .ok (.inl request) => do
    let response ← runUseCase (serveInference services.orchestrator requestId request)
    ret (inferenceReply requestId response)

def handleRoutesEvaluate (event : ProxyEvent) (requestId : String) : Prog ApiPorts HttpReply :=
  match services.parseRequestOr400 event requestId with
  | .error x => raise x.exception
  | .ok (.inr response) => ret response
  | .ok (.inl request) => do
    match ← (runUseCase (services.routeService.evaluate request)).attempt with
    | .error exc =>
      ret (respond (mapExceptionToStatusAndBody exc requestId).1
        (mapExceptionToStatusAndBody exc requestId).2.json)
    | .ok decision => ret (respond 200 (serializeRouteEvaluation decision requestId))

def handleModels (requestId : String) : HttpReply :=
  respond 200 (serializeModelsResponse services.models requestId)

def handleGetDecision (event : ProxyEvent) (requestId : String) : Prog ApiPorts HttpReply :=
  match parameter event.pathParameters "decisionId" with
  | none | some "" => ret (respondError 400 requestId "INVALID_REQUEST" "decisionId is required.")
  | some decisionId => do
    match ← @Prog.perform ApiPorts (.getDecision decisionId) with
    | none => ret (respondError 404 requestId "NOT_FOUND" "No such routing decision.")
    | some auditRecord =>
      if parameter event.queryStringParameters "applicationId" ≠
        some auditRecord.decision.applicationId then
        ret (respondError 403 requestId "POLICY_DENIED"
          "You are not authorized to view this decision.")
      else ret (respond 200 (serializeAuditRecord auditRecord requestId))

/-! ## Dispatch -/

inductive Route where
  | health | ready | inference | routesEvaluate | models | getDecision
deriving DecidableEq, Repr

/-- The routes of the API, by method and resource. -/
def routes : List ((String × String) × Route) :=
  [(("GET", "/health"), .health), (("GET", "/ready"), .ready),
    (("POST", "/v1/inference"), .inference),
   (("POST", "/v1/routes/evaluate"), .routesEvaluate), (("GET", "/v1/models"), .models),
   (("GET", "/v1/decisions/\x7bdecisionId\x7d"), .getDecision)]

end HandlerServices

def ProxyEvent.route (event : ProxyEvent) : Option HandlerServices.Route :=
  (HandlerServices.routes.find? (·.1 = (event.httpMethod, event.resource))).map (·.2)

namespace HandlerServices

variable (services : HandlerServices)

def handleRoute (event : ProxyEvent) (requestId : String) : Prog ApiPorts HttpReply :=
  match event.route with
  | some .health => ret handleHealth
  | some .ready => ret services.handleReady
  | some .inference => services.handleInference event requestId
  | some .routesEvaluate => services.handleRoutesEvaluate event requestId
  | some .models => ret (services.handleModels requestId)
  | some .getDecision => handleGetDecision event requestId
  | none => ret (respondError 404 requestId "NOT_FOUND" "Unknown route.")

def dispatch (event : ProxyEvent) : Prog ApiPorts HttpReply := do
  match ← (services.handleRoute event event.requestIdText).attempt with
  | .ok response => ret response
  | .error _ =>
      ret (respondError 500 event.requestIdText "INTERNAL_ERROR" "An unexpected error occurred.")

end HandlerServices

end ModelRouter
