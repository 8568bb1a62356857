import ModelRouter.Handlers.Dispatching

/-!
# What the service answers

* `refusals` : the fixed errors of each route; `selectionRefusals`, those of a decision without a
  model, which come with its reason codes;
* `Performs` : a run that is one of a use case, for the event's request;
* `dispatch_answers` : every event is answered, with what its run has returned or with an error of
  its route.
-/

namespace ModelRouter
open Effects Prog HandlerServices

/-! ## The answers of a route -/

/-- An error that is answered. -/
structure Refusal where
  statusCode : Nat
  errorCode : String
  message : String
deriving DecidableEq

def Refusal.reply (refusal : Refusal) (requestId : String) (reasonCodes : Option (List String)) :
    HttpReply :=
  respond refusal.statusCode
    (errorResponseBody requestId refusal.errorCode refusal.message reasonCodes).json

def internalError : Refusal := ⟨500, "INTERNAL_ERROR", "An unexpected error occurred."⟩

/-- What an exception of a use case comes to. -/
def exceptionRefusals : List Refusal :=
  [⟨403, "POLICY_DENIED", "No routing policy is configured for this application."⟩,
   ⟨409, "IDEMPOTENCY_CONFLICT", "This idempotency key was already used for a different request."⟩,
   ⟨409, "IDEMPOTENCY_IN_PROGRESS",
     "A request with this idempotency key is already being processed."⟩,
   ⟨500, "INTERNAL_ERROR", "The router's configuration could not be loaded."⟩,
   ⟨502, "PROVIDER_UNAVAILABLE", "The model provider is currently unavailable."⟩, internalError]

/-- What a decision without a model comes to, with its reason codes. -/
def selectionRefusals : List Refusal :=
  [⟨502, "PROVIDER_UNAVAILABLE", "The selected model and all approved fallbacks failed."⟩,
   ⟨422, "REQUIRED_CAPABILITY_UNAVAILABLE",
     "The requested capability is not available to this application."⟩,
   ⟨402, "COST_LIMIT_EXCEEDED", "No eligible route satisfies the requested cost limit."⟩,
   ⟨404, "NO_ELIGIBLE_MODEL", "No eligible model is available for this request."⟩]

def bodyRefusals : List Refusal :=
  bodyRejections.map fun message => ⟨400, "INVALID_REQUEST", message⟩

/-- The fixed errors of a route. -/
def refusals : Option Route → List Refusal
  | some .inference | some .routesEvaluate => bodyRefusals ++ exceptionRefusals
  | some .getDecision =>
    [⟨400, "INVALID_REQUEST", "decisionId is required."⟩,
      ⟨404, "NOT_FOUND", "No such routing decision."⟩,
     ⟨403, "POLICY_DENIED", "You are not authorized to view this decision."⟩, internalError]
  | none => [⟨404, "NOT_FOUND", "Unknown route."⟩]
  | some .health | some .ready | some .models => []

/-- The events of a use case that is called from a handler. -/
def ofPorts (calls : List (Event Ports)) : List (Event ApiPorts) :=
  calls.map fun ev => ⟨.ofPort ev.call, ev.reply⟩

/-- The run is one of the use case, for the event's request. -/
def Performs {α : Type} (services : HandlerServices) (event : ProxyEvent)
    (useCase : InferenceRequest → Prog Ports α)
    (tr : List (Event ApiPorts)) (out : Except PyException α) : Prop :=
  ∃ request calls, services.received event = some request ∧ Run (useCase request) calls out ∧
    tr = ofPorts calls

/-- The success of the event's route: what the run has returned, or has found for the application it
was made for. -/
def Succeeds (services : HandlerServices) (event : ProxyEvent) (tr : List (Event ApiPorts))
    (response : HttpReply) : Prop :=
  match event.route with
  | some .health => response = handleHealth
  | some .ready => response = services.handleReady
  | some .inference => ∃ result,
    Performs services event services.orchestrator.invoke tr (.ok result) ∧
      result.decision.selectedModelAlias ≠ none ∧
      response = respond 200 (serializeInferenceResult result event.requestIdText)
  | some .routesEvaluate => ∃ decision,
    Performs services event services.routeService.evaluate tr (.ok decision) ∧
      response = respond 200 (serializeRouteEvaluation decision event.requestIdText)
  | some .models => response = services.handleModels event.requestIdText
  | some .getDecision => ∃ decisionId auditRecord,
    parameter event.pathParameters "decisionId" = some decisionId ∧
      tr = [⟨.getDecision decisionId, .ok (some auditRecord)⟩] ∧
      parameter event.queryStringParameters "applicationId" =
        some auditRecord.decision.applicationId ∧
      response = respond 200 (serializeAuditRecord auditRecord event.requestIdText)
  | none => False

/-- The response is a fixed error of the route, or the run has returned a decision without a model,
and the response has that decision's reason codes. -/
inductive Refuses (services : HandlerServices) (event : ProxyEvent) (tr : List (Event ApiPorts))
    (response : HttpReply) :
    Prop
  | fixed (refusal : Refusal) (hrefusal : refusal ∈ refusals event.route)
      (hresponse : response = refusal.reply event.requestIdText none)
  | unselected (refusal : Refusal) (result : InferenceResult)
      (hroute : event.route = some .inference)
      (hrun : Performs services event services.orchestrator.invoke tr (.ok result))
      (hselected : result.decision.selectedModelAlias = none)
      (hrefusal : refusal ∈ selectionRefusals) (hresponse : response =
        refusal.reply event.requestIdText (some (result.decision.reasonCodes.map (·.value))))

section
variable {services : HandlerServices} {event : ProxyEvent} {request : InferenceRequest}
  {tr : List (Event ApiPorts)}

theorem mapException_refusal (exc : PyException) (requestId : String) :
    ∃ refusal ∈ exceptionRefusals,
    respond (mapExceptionToStatusAndBody exc requestId).1
      (mapExceptionToStatusAndBody exc requestId).2.json = refusal.reply requestId none := by
  cases exc with
  | routingPolicyNotFoundError => exact ⟨_, List.mem_cons_self, rfl⟩
  | idempotencyConflictError => exact ⟨_, .tail _ List.mem_cons_self, rfl⟩
  | idempotencyInProgressError => exact ⟨_, .tail _ (.tail _ List.mem_cons_self), rfl⟩
  | configurationError => exact ⟨_, .tail _ (.tail _ (.tail _ List.mem_cons_self)), rfl⟩
  | providerError => exact ⟨_, .tail _ (.tail _ (.tail _ (.tail _ List.mem_cons_self))), rfl⟩
  | _ => exact ⟨internalError, by simp [exceptionRefusals], rfl⟩

theorem mapNoSelection_refusal (decision : RoutingDecision) (invocationAttempted : Bool)
    (requestId : String) :
    ∃ refusal ∈ selectionRefusals,
      respond (mapNoSelectionToStatusAndBody decision invocationAttempted requestId).1
        (mapNoSelectionToStatusAndBody decision invocationAttempted requestId).2.json =
          refusal.reply requestId (some (decision.reasonCodes.map (·.value))) := by
  unfold mapNoSelectionToStatusAndBody
  dsimp only
  split
  · exact ⟨_, List.mem_cons_self, rfl⟩
  · split
    · exact ⟨_, .tail _ List.mem_cons_self, rfl⟩
    · split
      · exact ⟨_, .tail _ (.tail _ List.mem_cons_self), rfl⟩
      · exact ⟨_, .tail _ (.tail _ (.tail _ List.mem_cons_self)), rfl⟩

theorem parsed_refuses {response : HttpReply} (hroute : bodyRefusals ⊆ refusals event.route)
    (h : services.parseRequestOr400 event event.requestIdText = .ok (.inr response)) :
    Refuses services event tr response := by
  obtain ⟨message, hmessage, rfl⟩ := parseRequestOr400_rejected h
  exact .fixed _ (hroute (List.mem_map_of_mem hmessage)) rfl

/-- What a served request is answered. -/
theorem run_serveInference {requestId : String} {answer : InferenceResponse}
    {tr : List (Event Ports)}
    (h : Run (serveInference services.orchestrator requestId request) tr (.ok answer)) :
    (∃ result, Run (services.orchestrator.invoke request) tr (.ok result) ∧
      (result.decision.selectedModelAlias ≠ none ∧ answer = .served result ∨
        result.decision.selectedModelAlias = none ∧ answer = noSelection result requestId)) ∨
    ∃ exc, answer = .error (mapExceptionToStatusAndBody exc requestId).1
      (mapExceptionToStatusAndBody exc requestId).2 := by
  obtain ⟨outcome, tr₁, tr₂, rfl, hinvoke, hanswer⟩ := (run_attempt_bind_iff _ _ _ _).mp h
  cases outcome with
  | error exc =>
      obtain ⟨-, hanswer⟩ := (run_ret_iff _ _ _).mp hanswer
      cases hanswer
      exact Or.inr ⟨exc, rfl⟩
  | ok result =>
      dsimp only at hanswer
      split at hanswer <;> rename_i hselected <;> obtain ⟨rfl, hanswer⟩ :=
        (run_ret_iff _ _ _).mp hanswer <;>
        cases hanswer <;> rw [List.append_nil]
      · exact Or.inl ⟨result, hinvoke, Or.inr ⟨hselected, rfl⟩⟩
      · exact Or.inl ⟨result, hinvoke, Or.inl ⟨hselected, rfl⟩⟩

theorem carried_ofPorts {calls : List (Event Ports)} (h : @Carried Ports ApiPorts
    (fun port => @Prog.tryPerform ApiPorts (.ofPort port)) calls tr) : tr = ofPorts calls := by
  induction calls generalizing tr with
  | nil => exact h
  | cons ev calls ih =>
      obtain ⟨first, rest, rfl, hfirst, hrest⟩ := h
      obtain ⟨r, tail, rfl, htail⟩ := (run_call_iff _ _ _ _).mp hfirst
      obtain ⟨rfl, hr⟩ := (run_ret_iff _ _ _).mp htail
      cases hr
      rw [ih hrest]
      rfl

/-- A run of a use case from a handler is a run of it. -/
theorem run_useCase {α : Type} {p : Prog Ports α} {out : Except PyException α}
    (h : Run (runUseCase p) tr out) :
    ∃ calls, Run p calls out ∧ tr = ofPorts calls := by
  obtain ⟨calls, out', hrun, hcarried, rfl⟩ :=
    run_interpret (fun port low x => by simp [Prog.tryPerform]) h
  refine ⟨calls, ?_, carried_ofPorts hcarried⟩
  cases out' <;> exact hrun

theorem run_handleInference {response : HttpReply} (hroute : event.route = some .inference)
    (h : Run (services.handleInference event event.requestIdText) tr (.ok response)) :
    Succeeds services event tr response ∨ Refuses services event tr response := by
  unfold handleInference at h
  split at h
  · simp at h
  · rename_i response' hrejected
    obtain ⟨-, hresponse⟩ := (run_ret_iff _ _ _).mp h
    cases hresponse
    exact Or.inr (parsed_refuses (by rw [hroute]; simp [refusals]) hrejected)
  · rename_i request hparsed
    obtain ⟨answer, tr₁, tr₂, rfl, hserve, hanswer⟩ := (run_bind_ok_iff _ _ _ _).mp h
    obtain ⟨rfl, hresponse⟩ := (run_ret_iff _ _ _).mp hanswer
    cases hresponse
    obtain ⟨calls, hrun, hcalls⟩ := run_useCase hserve
    rw [List.append_nil]
    obtain ⟨result, hinvoke, hanswer⟩ | ⟨exc, rfl⟩ := run_serveInference hrun
    · have hperforms : Performs services event services.orchestrator.invoke tr₁ (.ok result) :=
        ⟨request, calls, received_of_parsed hparsed, hinvoke, hcalls⟩
      obtain ⟨hselected, rfl⟩ | ⟨hselected, rfl⟩ := hanswer
      · refine Or.inl ?_
        unfold Succeeds
        rw [hroute]
        exact ⟨result, hperforms, hselected, rfl⟩
      · obtain ⟨refusal, hmem, hreply⟩ :=
          mapNoSelection_refusal result.decision
            (!result.invocationAttempts.isEmpty) event.requestIdText
        exact Or.inr (.unselected refusal result hroute hperforms hselected hmem hreply)
    · obtain ⟨refusal, hmem, hreply⟩ := mapException_refusal exc event.requestIdText
      exact Or.inr (.fixed refusal (by rw [hroute]; simp [refusals, hmem]) hreply)

theorem run_handleRoutesEvaluate {response : HttpReply}
    (hroute : event.route = some .routesEvaluate)
    (h : Run (services.handleRoutesEvaluate event event.requestIdText) tr (.ok response)) :
    Succeeds services event tr response ∨ Refuses services event tr response := by
  unfold handleRoutesEvaluate at h
  split at h
  · simp at h
  · rename_i response' hrejected
    obtain ⟨-, hresponse⟩ := (run_ret_iff _ _ _).mp h
    cases hresponse
    exact Or.inr (parsed_refuses (by rw [hroute]; simp [refusals]) hrejected)
  · rename_i request hparsed
    obtain ⟨outcome, tr₁, tr₂, rfl, hevaluate, hanswer⟩ := (run_attempt_bind_iff _ _ _ _).mp h
    cases outcome with
    | error exc =>
        obtain ⟨-, hresponse⟩ := (run_ret_iff _ _ _).mp hanswer
        cases hresponse
        obtain ⟨refusal, hmem, hreply⟩ := mapException_refusal exc event.requestIdText
        exact Or.inr (.fixed refusal (by rw [hroute]; simp [refusals, hmem]) hreply)
    | ok decision =>
        obtain ⟨rfl, hresponse⟩ := (run_ret_iff _ _ _).mp hanswer
        cases hresponse
        obtain ⟨calls, hrun, hcalls⟩ := run_useCase hevaluate
        refine Or.inl ?_
        unfold Succeeds
        rw [hroute, List.append_nil]
        exact ⟨decision, ⟨request, calls, received_of_parsed hparsed, hrun, hcalls⟩, rfl⟩

theorem run_handleGetDecision {response : HttpReply} (hroute : event.route = some .getDecision)
    (h : Run (handleGetDecision event event.requestIdText) tr (.ok response)) :
    Succeeds services event tr response ∨ Refuses services event tr response := by
  have hrefuses : ∀ refusal ∈ refusals (some .getDecision), ∀ tr,
      Refuses services event tr (refusal.reply event.requestIdText none) :=
    fun refusal hmem _ => .fixed refusal (by rw [hroute]; exact hmem) rfl
  unfold handleGetDecision at h
  split at h
  · obtain ⟨-, hresponse⟩ := (run_ret_iff _ _ _).mp h
    cases hresponse
    exact Or.inr (hrefuses _ List.mem_cons_self _)
  · obtain ⟨-, hresponse⟩ := (run_ret_iff _ _ _).mp h
    cases hresponse
    exact Or.inr (hrefuses _ List.mem_cons_self _)
  · rename_i decisionId _ hdecisionId
    obtain ⟨found, tr', rfl, hfound⟩ := (run_perform_bind_ok_iff _ _ _ _).mp h
    cases found with
    | none =>
        obtain ⟨-, hresponse⟩ := (run_ret_iff _ _ _).mp hfound
        cases hresponse
        exact Or.inr (hrefuses _ (.tail _ List.mem_cons_self) _)
    | some auditRecord =>
        dsimp only at hfound
        split at hfound <;> rename_i howner <;> obtain ⟨rfl, hresponse⟩ :=
          (run_ret_iff _ _ _).mp hfound <;>
          cases hresponse
        · exact Or.inr (hrefuses _ (.tail _ (.tail _ List.mem_cons_self)) _)
        · refine Or.inl ?_
          unfold Succeeds
          rw [hroute]
          exact ⟨decisionId, auditRecord, hdecisionId, rfl, not_not.mp howner, rfl⟩

/-- **Whatever its ports do, an event is answered**: with what its run has returned, or with one of
the route's errors under the event's identifier. No text of an exception is answered. -/
theorem dispatch_answers (services : HandlerServices) (event : ProxyEvent)
    (tr : List (Event ApiPorts))
    (out : Except PyException HttpReply) (h : Run (services.dispatch event) tr out) :
    ∃ response, out = .ok response ∧
      (Succeeds services event tr response ∨ Refuses services event tr response) := by
  obtain ⟨outcome, tr₁, tr₂, rfl, hhandle, hanswer⟩ := (run_attempt_bind_iff _ _ _ _).mp h
  cases outcome with
  | ok response =>
      obtain ⟨rfl, rfl⟩ := (run_ret_iff _ _ _).mp hanswer
      refine ⟨response, rfl, ?_⟩
      rw [List.append_nil]
      unfold handleRoute at hhandle
      split at hhandle <;> rename_i hroute
      · obtain ⟨-, hresponse⟩ := (run_ret_iff _ _ _).mp hhandle
        exact Or.inl (by unfold Succeeds; rw [hroute]; exact Except.ok.inj hresponse)
      · obtain ⟨-, hresponse⟩ := (run_ret_iff _ _ _).mp hhandle
        exact Or.inl (by unfold Succeeds; rw [hroute]; exact Except.ok.inj hresponse)
      · exact run_handleInference hroute hhandle
      · exact run_handleRoutesEvaluate hroute hhandle
      · obtain ⟨-, hresponse⟩ := (run_ret_iff _ _ _).mp hhandle
        exact Or.inl (by unfold Succeeds; rw [hroute]; exact Except.ok.inj hresponse)
      · exact run_handleGetDecision hroute hhandle
      · obtain ⟨-, hresponse⟩ := (run_ret_iff _ _ _).mp hhandle
        cases hresponse
        exact Or.inr (.fixed _ (by rw [hroute]; exact List.mem_cons_self) rfl)
  | error x =>
      obtain ⟨-, rfl⟩ := (run_ret_iff _ _ _).mp hanswer
      refine ⟨_, rfl, Or.inr (.fixed internalError ?_ rfl)⟩
      unfold handleRoute at hhandle
      split at hhandle <;> rename_i hroute <;> rw [hroute]
      · simp at hhandle
      · simp at hhandle
      · simp [refusals, exceptionRefusals]
      · simp [refusals, exceptionRefusals]
      · simp at hhandle
      · simp [refusals]
      · simp at hhandle

end

namespace Scenario

def services : HandlerServices where
  catalogueVersion := 1
  models := [{ definition := model "primary" 3 }, { definition := model "fallback" 1 }]
  routeService := orchestrator.routeEvaluationService
  orchestrator := Scenario.orchestrator
  pydantic := .strict
  nestingLimit := 100

def inferenceBody : String :=
  "\x7b\"applicationId\": \"app\", \"messages\": [\x7b\"role\": \"user\", \"content\": \"hello\"\x7d], " ++
  "\"requirements\": \x7b\"capability\": \"chat\"\x7d\x7d"

def postInference : ProxyEvent where
  httpMethod := "POST"
  resource := "/v1/inference"
  body := some inferenceBody
  requestId := some "req"

def apiAnswer (world : World) : Handler ApiPorts WorldState
  | .ofPort port, s => world.answer port s
  | .getDecision decisionId, s =>
      (.ok (s.trail.saved.find? (·.decision.decisionId = decisionId)), s)

/-- The fallback serves a request of which the primary model is throttled. -/
theorem fallback_answers : ∃ response, Run (services.dispatch postInference)
    (trace (apiAnswer throttled) (services.dispatch postInference) fresh) (.ok response) ∧
    response.statusCode = 200 ∧
      (Succeeds services postInference
        (trace (apiAnswer throttled) (services.dispatch postInference) fresh) response ∨
        Refuses services postInference
          (trace (apiAnswer throttled) (services.dispatch postInference) fresh) response) := by
  have hstatus : (exec (apiAnswer throttled) (services.dispatch postInference) fresh).1.toOption.map
      (·.statusCode) = some 200 := by decide +kernel
  obtain ⟨response, hrun, hresponse⟩ := run_of_exec hstatus
  obtain ⟨response', hsame, hanswer⟩ := dispatch_answers services postInference _ _ hrun
  cases hsame
  exact ⟨response, hrun, hresponse, hanswer⟩

end Scenario

end ModelRouter
