import ModelRouter.Application.Auditability
import ModelRouter.Application.Provenance
import ModelRouter.Handlers.HttpApi
import ModelRouter.Lib.Outcome

/-!
# What an event sets off

* `HandlerServices.received` : the request of an event;
* `HandlerServices.Permits` : the calls that an event may set off;
* `spec_dispatch` : an event sets off no others, and what is served has been saved or replayed, for
  its request.
-/

namespace ModelRouter
open Effects Prog HandlerServices

/-! ## The calls of an event -/

namespace HandlerServices

variable (services : HandlerServices) (event : ProxyEvent)

def received : Option InferenceRequest :=
  match services.parseRequestOr400 event event.requestIdText with
  | .ok (.inl request) => some request
  | _ => none

def requestHash (request : InferenceRequest) : Except PyException String :=
  services.orchestrator.computeRequestHash request

/-- Only a parsed request reaches the use cases, and only the decision that is asked for is looked
up. -/
def Permits : ApiPort → Prop
  | .ofPort port => ∃ request, services.received event = some request ∧
    (event.route = some .inference ∧ request.Concerns (services.requestHash request) port ∨
      event.route = some .routesEvaluate ∧ request.ConcernsEvaluation port)
  | .getDecision decisionId =>
    event.route = some .getDecision ∧ parameter event.pathParameters "decisionId" = some decisionId

end HandlerServices

def ApiPort.Promised : (port : ApiPort) → Except PyException port.Answer → Prop
  | .ofPort port, reply => port.Promised reply
  | .getDecision _, _ => True

def apiAuditing : Registry ApiPorts String AuditRecord where
  name := auditing.name
  filing
    | ⟨.ofPort port, reply⟩ => auditing.filing ⟨port, reply⟩
    | ⟨.getDecision _, _⟩ => none

/-- The observer of the calls of an event. -/
abbrev eventMonitor (services : HandlerServices) (event : ProxyEvent) :
    Monitor ApiPorts (AuditPhase × Unit) :=
  apiAuditing.monitor.both (.stateless (services.Permits event) ApiPort.Promised)

/-- A use case keeps from a handler what it keeps by itself. -/
theorem spec_served {σ α : Type} {M : Monitor Ports σ} {N : Monitor ApiPorts σ} {p : Prog Ports α}
    {Q : Except PyException α → σ → Prop} {s : σ} (h : Spec M p Q s)
    (howes : ∀ s port, M.owes s port → N.owes s (.ofPort port))
    (hrelies : ∀ s (port : Port) (r : Except PyException port.Answer), N.relies s (.ofPort port) r →
      M.relies s port r)
    (hnext : ∀ s (port : Port) (r : Except PyException port.Answer),
      N.next s (.ofPort port) r = M.next s port r) :
    Spec N (runUseCase p) Q s := by
  induction p generalizing s with
  | ret a => exact h
  | raise x => exact h
  | call port k ih =>
      refine ⟨howes s port h.1, fun r hr => ?_⟩
      rw [hnext]
      exact ih r (h.2 r (hrelies s port r hr))

section
variable {services : HandlerServices} {event : ProxyEvent} {request : InferenceRequest}

/-! ## Bodies -/

/-- Why a body is rejected. -/
def bodyRejections : List String :=
  ["Request body exceeds the maximum allowed size.", "Request body is not valid JSON.",
    "Request failed validation."]

theorem parseBodyOr400_rejected {requestId : String} {response : HttpReply}
    (h : services.parseBodyOr400 event requestId = .ok (.inr response)) :
    ∃ message ∈ bodyRejections,
      response = respondError 400 requestId "INVALID_REQUEST" message := by
  unfold parseBodyOr400 at h
  obtain ⟨rawBody, -, h⟩ := Outcome.bind_ok h
  split at h
  · cases h
    exact ⟨_, List.mem_cons_self, rfl⟩
  · split at h
    · cases h
    · cases h
      exact ⟨_, List.mem_cons_of_mem _ List.mem_cons_self, rfl⟩
    · cases h
      exact ⟨_, List.mem_cons_of_mem _ List.mem_cons_self, rfl⟩
    · cases h

theorem parseRequestOr400_rejected {requestId : String} {response : HttpReply}
    (h : services.parseRequestOr400 event requestId = .ok (.inr response)) :
    ∃ message ∈ bodyRejections,
      response = respondError 400 requestId "INVALID_REQUEST" message := by
  unfold parseRequestOr400 at h
  obtain ⟨body, hbody, h⟩ := Outcome.bind_ok h
  split at h
  · cases h
    exact parseBodyOr400_rejected hbody
  · cases h
  · split at h
    · cases h
    · split at h
      · cases h
        exact ⟨_, List.mem_cons_of_mem _ (List.mem_cons_of_mem _ List.mem_cons_self), rfl⟩
      · cases h

theorem received_of_parsed
    (h : services.parseRequestOr400 event event.requestIdText = .ok (.inl request)) :
    services.received event = some request := by
  unfold received
  rw [h]

/-! ## Inference -/

/-- What is served satisfies `V`. -/
def Serves {σ : Type} (V : InferenceResult → σ → Prop) (out : Except PyException InferenceResponse)
    (st : σ) : Prop :=
  (∃ statusCode body, out = .ok (.error statusCode body) ∧ statusCode ≠ 200) ∨
    ∃ result, out = .ok (.served result) ∧ V result st

theorem mapException_status (exc : PyException) (requestId : String) :
    (mapExceptionToStatusAndBody exc requestId).1 ≠ 200 := by
  cases exc <;> simp [mapExceptionToStatusAndBody]

theorem mapNoSelection_status (decision : RoutingDecision) (invocationAttempted : Bool)
    (requestId : String) :
    (mapNoSelectionToStatusAndBody decision invocationAttempted requestId).1 ≠ 200 := by
  unfold mapNoSelectionToStatusAndBody
  dsimp only
  split
  · simp
  · split
    · simp
    · split <;> simp

/-- What is served is what the use case has returned. -/
theorem spec_serveInference {σ : Type} {M : Monitor Ports σ} {s : σ}
    {V : InferenceResult → σ → Prop} {orchestrator : InvocationOrchestrator} (requestId : String)
    (h : Spec M (orchestrator.invoke request) (fun out st => ∀ result, out = .ok result →
      V result st) s) :
    Spec M (serveInference orchestrator requestId request) (Serves V) s := by
  refine Spec.attemptBind h fun outcome st hleft => ?_
  split
  · exact Or.inl ⟨_, _, rfl, mapException_status _ _⟩
  · rename_i result
    split
    · exact Or.inl ⟨_, _, rfl, mapNoSelection_status _ _ _⟩
    · exact Or.inr ⟨result, rfl, hleft result rfl⟩

/-! ## Events -/

/-- A served inference is of a result that satisfies `V`, for the event's request. -/
def ServedWith {σ : Type} (services : HandlerServices) (event : ProxyEvent)
    (V : InferenceRequest → InferenceResult → σ → Prop) (response : HttpReply) (st : σ) : Prop :=
  event.route = some .inference → response.statusCode = 200 →
  ∃ request result, services.received event = some request ∧
    response = respond 200 (serializeInferenceResult result event.requestIdText) ∧
    V request result st

/-- **An event sets off the use case of its route, for its request**, or the look-up that it asks
for. -/
theorem spec_dispatch_of {σ : Type} {N : Monitor ApiPorts σ} {s : σ}
    {V : InferenceRequest → InferenceResult → σ → Prop}
    (hserve : ∀ request, services.received event = some request → event.route = some .inference →
      Spec N (runUseCase (serveInference services.orchestrator event.requestIdText request))
        (Serves (V request)) s)
    (hevaluate : ∀ request, services.received event = some request →
      event.route = some .routesEvaluate →
      Spec N (runUseCase (services.routeService.evaluate request)) (fun _ _ => True) s)
    (hlookUp : ∀ decisionId, event.route = some .getDecision →
      parameter event.pathParameters "decisionId" = some decisionId →
      N.owes s (.getDecision decisionId)) :
    Spec N (services.dispatch event) (fun out st => ∃ response, out = .ok response ∧
      ServedWith services event V response st)
      s := by
  have hstatus : ∀ {response : HttpReply} {st : σ}, response.statusCode ≠ 200 →
      ServedWith services event V response st :=
    fun h _ hstatus => absurd hstatus h
  have hquiet : ∀ {p : Prog ApiPorts HttpReply}, event.route ≠ some .inference →
      Spec N p (fun _ _ => True) s →
      Spec N p (fun out st => ∀ response, out = .ok response →
        ServedWith services event V response st) s :=
    fun hroute h => h.mono fun _ _ _ _ _ hinference => absurd hinference hroute
  have hinference : event.route = some .inference →
      Spec N (services.handleInference event event.requestIdText)
      (fun out st => ∀ response, out = .ok response →
        ServedWith services event V response st) s := by
    intro hroute
    unfold handleInference
    split
    · rintro response ⟨⟩
    · rename_i response hrejected
      obtain ⟨message, -, rfl⟩ := parseRequestOr400_rejected hrejected
      rintro response' ⟨⟩
      exact hstatus (by simp [respondError, respond])
    · rename_i request hparsed
      have hreceived := received_of_parsed hparsed
      refine Spec.bind (hserve request hreceived hroute) (fun answer st hserved => ?_) fun x st _ =>
        ?_
      · rintro response ⟨⟩
        obtain ⟨statusCode, body, hanswer, hrefused⟩ | ⟨result, hanswer, hleft⟩ := hserved
        · cases hanswer
          exact hstatus hrefused
        · cases hanswer
          exact fun _ _ => ⟨request, result, hreceived, rfl, hleft⟩
      · rintro response ⟨⟩
  have hhandle : Spec N (services.handleRoute event event.requestIdText)
      (fun out st => ∀ response, out = .ok response →
        ServedWith services event V response st) s := by
    unfold handleRoute
    split <;> rename_i hroute
    · exact hquiet (by simp [hroute]) trivial
    · exact hquiet (by simp [hroute]) trivial
    · exact hinference hroute
    · refine hquiet (by simp [hroute]) ?_
      unfold handleRoutesEvaluate
      split
      · trivial
      · trivial
      · rename_i request hparsed
        refine Spec.attemptBind (hevaluate request (received_of_parsed hparsed) hroute)
          fun outcome st _ => ?_
        cases outcome <;> trivial
    · exact hquiet (by simp [hroute]) trivial
    · refine hquiet (by simp [hroute]) ?_
      unfold handleGetDecision
      split
      · trivial
      · trivial
      · rename_i decisionId _ hdecisionId
        refine Spec.performBind (hlookUp decisionId hroute hdecisionId) (fun found _ =>
          ?_) fun _ _ => trivial
        split
        · trivial
        · split <;> trivial
    · exact hquiet (by simp [hroute]) trivial
  refine Spec.attemptBind hhandle fun outcome st hserved => ?_
  cases outcome with
  | ok response => exact ⟨response, rfl, hserved response rfl⟩
  | error x => exact ⟨_, rfl, hstatus (by simp [respondError, respond])⟩

/-- What both use cases keep to, from any state, an event keeps to; what it serves is what its use
case has returned. -/
theorem spec_useCases {σ : Type} {M : Monitor Ports σ} {N : Monitor ApiPorts σ} {s : σ}
    {V : InferenceResult → σ → Prop} (howes : ∀ s port, M.owes s port → N.owes s (.ofPort port))
    (hrelies : ∀ s (port : Port) (r : Except PyException port.Answer), N.relies s (.ofPort port) r →
      M.relies s port r)
    (hnext : ∀ s (port : Port) (r : Except PyException port.Answer),
      N.next s (.ofPort port) r = M.next s port r)
    (hlookUp : ∀ decisionId, N.owes s (.getDecision decisionId))
    (hinvoke : ∀ request, Spec M (services.orchestrator.invoke request)
      (fun out st => ∀ result, out = .ok result → V result st) s)
    (hevaluate : ∀ request, Spec M (services.routeService.evaluate request) (fun _ _ => True) s) :
    Spec N (services.dispatch event)
      (fun out st => ∃ response, out = .ok response ∧
        ServedWith services event (fun _ => V) response st) s :=
  spec_dispatch_of (fun request _ _ =>
    spec_served (spec_serveInference _ (hinvoke request)) howes hrelies hnext)
    (fun request _ _ => spec_served (hevaluate request) howes hrelies hnext) fun decisionId _ _ =>
      hlookUp decisionId

/-- A served inference is of a result that has been saved or replayed, and is made for the event's
request. -/
def ServedEvent (services : HandlerServices) (event : ProxyEvent) (response : HttpReply)
    (st : AuditPhase × Unit) : Prop :=
  event.route = some .inference → response.statusCode = 200 → ∃ request result,
    services.received event = some request ∧
    response = respond 200 (serializeInferenceResult result event.requestIdText) ∧
      Registry.Vouched st.1 result.auditRecord ∧ result.decision.MadeFor request.applicationId

/-- **An event sets off the calls it permits, and no others**; what is served has been saved or
replayed, for its request. -/
theorem spec_dispatch (hrepository : services.orchestrator.hasDecisionRepository = true) :
    Spec (eventMonitor services event) (services.dispatch event)
      (fun out st => ∃ response, out = .ok response ∧
        ServedEvent services event response st) ({}, ()) := by
  refine spec_dispatch_of (V := fun request result (st : AuditPhase × Unit) =>
    Registry.Vouched st.1 result.auditRecord ∧
    result.decision.MadeFor request.applicationId) ?_ ?_ ?_
  · intro request hreceived hroute
    have hinvoke := Spec.both (@spec_invoke_auditing services.orchestrator request hrepository)
      spec_invoke_provenance
    refine spec_served (spec_serveInference _ (hinvoke.mono fun out st h result hresult =>
      ⟨h.1 result hresult, h.2 result hresult⟩)) ?_ (fun _ _ _ => id) fun _ _ _ => rfl
    exact fun st port howes => ⟨howes.1, request, hreceived, Or.inl ⟨hroute, howes.2⟩⟩
  · intro request hreceived hroute
    have hevaluate := Spec.both (@spec_evaluate_auditing request services.routeService {})
      (spec_evaluate_provenance services.routeService)
    refine spec_served (hevaluate.mono fun _ _ _ => trivial) ?_ (fun _ _ _ => id) fun _ _ _ => rfl
    exact fun st port howes => ⟨howes.1, request, hreceived, Or.inr ⟨hroute, howes.2⟩⟩
  · exact fun decisionId hroute hdecisionId => ⟨fun _ => trivial, hroute, hdecisionId⟩

end

end ModelRouter
