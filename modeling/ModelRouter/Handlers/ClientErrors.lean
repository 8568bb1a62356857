import ModelRouter.Handlers.Answers

/-!
# A client error costs nothing

`metering` observes which policies have been resolved, and whether a model has been called. It
relies on policies that do not change while a request is served, and on ports that leave it to the
policies and to the use case to raise what is answered as a client error.

* `spec_invoke_metering` : once a model has been called, a use case has a result with an attempt, or
  a server error;
* `client_errors_free` : so an event that is answered with a client error has called no model.
-/

namespace ModelRouter
open Effects Prog HandlerServices InvocationOrchestrator

/-- The exception is answered as an error of the server. -/
def ServerError (x : PyException) : Prop :=
  ∀ requestId, 500 ≤ (mapExceptionToStatusAndBody x requestId).1

structure Meter where
  resolved : List (String × Except PyException RoutingPolicy) := []
  called : Bool := false

def metering : Monitor Ports Meter where
  owes _ _ := True
  relies meter port reply := match port, reply with
    | .resolve applicationId, reply =>
        ∀ first, (applicationId, first) ∈ meter.resolved → reply = first
    | _, .error x => ServerError x
    | _, .ok _ => True
  next meter port reply := match port, reply with
    | .resolve applicationId, reply =>
        { meter with resolved := (applicationId, reply) :: meter.resolved }
    | .invoke _, _ => { meter with called := true }
    | _, _ => meter

/-! ## Parts of a use case -/

/-- The ports that the meter does not move for. -/
def UnmeteredPort : Port → Prop
  | .resolve _ | .invoke _ => False
  | _ => True

/-- The program returns what satisfies `V`, or raises a server error. -/
def EndsWell {α : Type} (V : α → Prop) : Except PyException α → Prop
  | .ok a => V a
  | .error x => ServerError x

/-- So does a program that leaves the meter where it is. -/
def Harmless {α : Type} (V : α → Prop) (p : Prog Ports α) : Prop :=
  ∀ meter, Spec metering p (fun out meter' => meter' = meter ∧ EndsWell V out) meter

theorem harmless_ret {α : Type} {V : α → Prop} {a : α} (h : V a) : Harmless V (ret a) :=
  fun _ => ⟨rfl, h⟩

theorem harmless_ask {port : Port} (h : UnmeteredPort port) :
    Harmless (fun _ => True) (ask port) := by
  intro meter
  refine Spec.perform trivial fun reply hreply => ?_
  cases port with
  | resolve | invoke => exact h.elim
  | _ =>
    refine ⟨rfl, ?_⟩
    cases reply with
    | ok a => trivial
    | error x => exact hreply

theorem Harmless.bind {α β : Type} {W : β → Prop} {p : Prog Ports α} {f : α → Prog Ports β}
    (h : Harmless (fun _ => True) p) (hf : ∀ a, Harmless W (f a)) : Harmless W (p >>= f) := by
  intro meter
  refine Spec.bind (h meter) (fun a meter' hmeter => ?_) fun x meter' hmeter => hmeter
  rw [← hmeter.1]
  exact hf a meter'

/-- Calls other than of a model leave whether one has been called. -/
theorem spec_uncalled {α : Type} {p : Prog Ports α}
    (h : Only (fun port : Port => ∀ request, port ≠ .invoke request) p)
    (meter : Meter) : Spec metering p (fun _ meter' => meter'.called = meter.called ∧
      ∀ pair ∈ meter.resolved, pair ∈ meter'.resolved) meter := by
  induction p generalizing meter with
  | ret a => exact ⟨rfl, fun _ => id⟩
  | raise x => exact ⟨rfl, fun _ => id⟩
  | call port k ih =>
      refine ⟨trivial, fun reply _ => (ih reply (h.2 reply) _).mono fun out meter' hmeter => ?_⟩
      cases port with
      | resolve applicationId =>
          exact ⟨hmeter.1, fun pair hpair => hmeter.2 pair (List.mem_cons_of_mem _ hpair)⟩
      | invoke request => exact absurd rfl (h.1 request)
      | _ => exact hmeter

section UseCase
variable {orchestrator : InvocationOrchestrator} {request : InferenceRequest} {meter : Meter}

theorem harmless_recordHealthOutcome (modelAlias : String) (status : InvocationAttemptStatus) :
    Harmless (fun _ => True) (orchestrator.recordHealthOutcome modelAlias status) := by
  unfold recordHealthOutcome
  split
  · exact harmless_ask trivial
  · exact harmless_ret trivial

theorem harmless_record (result : InferenceResult) :
    Harmless (· = result) (orchestrator.record result) := by
  unfold record persist publishMetrics publishDecisionEvent
  refine Harmless.bind ?_ fun _ => Harmless.bind ?_ fun _ => Harmless.bind ?_ fun _ =>
    harmless_ret rfl
  all_goals
    split
    · exact harmless_ask trivial
    · exact harmless_ret trivial

/-- A chain with a candidate leaves an attempt. -/
theorem spec_attemptChain_metering (decision : RoutingDecision)
    (effective : EffectiveRoutingRequirements)
    (chain : List String) (st : Attempts) (h : chain ≠ [] ∨ st.attempts ≠ []) (meter : Meter) :
    Spec metering (orchestrator.attemptChain request decision effective chain st)
      (fun out meter' => meter'.resolved = meter.resolved ∧
        EndsWell (fun st' => st'.attempts ≠ []) out) meter := by
  induction chain generalizing st meter with
  | nil =>
      refine ⟨rfl, ?_⟩
      rcases h with h | h
      · exact absurd rfl h
      · exact h
  | cons candidateAlias chain ih =>
      refine Spec.performBind trivial (fun startedAt _ => ?_) fun x hx => ⟨rfl, hx⟩
      refine Spec.tryPerformBind trivial fun reply hreply => ?_
      cases reply with
      | ok response =>
          refine Spec.performBind trivial (fun finishedAt _ => ?_) fun x hx => ⟨rfl, hx⟩
          refine Spec.bind (harmless_recordHealthOutcome _ _ _) (fun _ meter' hmeter =>
            ?_) fun x meter' hmeter => ?_
          · rw [hmeter.1]
            exact ⟨rfl, by simp [EndsWell]⟩
          · rw [hmeter.1]
            exact ⟨rfl, hmeter.2⟩
      | error x =>
          cases x with
          | providerError message category =>
              refine Spec.performBind trivial (fun finishedAt _ => ?_) fun x hx => ⟨rfl, hx⟩
              have hattempts : (st.failed candidateAlias category
                  (latencyMs startedAt finishedAt)).attempts ≠ [] := by
                simp [Attempts.failed]
              refine Spec.bind (harmless_recordHealthOutcome _ _ _) (fun _ meter' hmeter =>
                ?_) fun x meter' hmeter => ?_
              · rw [hmeter.1]
                split
                · exact ⟨rfl, hattempts⟩
                · exact (ih _ (Or.inr hattempts) _).mono fun _ _ h => ⟨h.1, h.2⟩
              · rw [hmeter.1]
                exact ⟨rfl, hmeter.2⟩
          | _ => exact ⟨rfl, hreply⟩

theorem serverError_aggregateDecision {original : RoutingDecision} {succeededAlias : Option String}
    {extraReasonCodes : List RoutingReasonCode} {x : PyException}
    (h : aggregateDecision original succeededAlias extraReasonCodes = .error x) :
      ServerError x := by
  unfold aggregateDecision at h
  dsimp only at h
  split at h
  · cases h
  · split at h
    · cases h
      intro requestId
      simp [mapExceptionToStatusAndBody]
    · cases h

/-! ## The use case -/

/-- A model has been called only if there is a result with an attempt, or a server error. -/
def CallsPaidFor (out : Except PyException InferenceResult) (meter : Meter) : Prop :=
  meter.called = true → EndsWell (fun result => result.invocationAttempts ≠ []) out

theorem spec_invokeUncached_metering (hcalled : meter.called = false) :
    Spec metering (orchestrator.invokeUncached request)
      (fun out meter' => CallsPaidFor out meter' ∧
        ∀ result, out = .ok result →
          ∃ policy, (request.applicationId, .ok policy) ∈ meter'.resolved) meter := by
  have hevaluate : Spec metering (orchestrator.routeEvaluationService.evaluate request)
      (fun out meter' => meter'.called = false ∧
        ∀ decision, out = .ok decision →
          ∃ policy, (request.applicationId, .ok policy) ∈ meter'.resolved) meter := by
    have honly : Only (fun port : Port => ∀ request, port ≠ .invoke request)
        (orchestrator.routeEvaluationService.evaluate request) := by
      refine (orchestrator.routeEvaluationService.only_evaluate request).mono ?_
      rintro _ hport request rfl
      exact hport
    refine Spec.performBind trivial (fun policy _ => ?_) fun x _ => ⟨hcalled, fun _ h => by cases h⟩
    refine (spec_uncalled (honly.2 (.ok policy)) _).mono fun out meter' hmeter =>
      ⟨hmeter.1.trans hcalled, ?_⟩
    exact fun _ _ => ⟨policy, hmeter.2 _ List.mem_cons_self⟩
  refine Spec.bind hevaluate (fun decision meter₁ h₁ => ?_) fun x meter₁ h₁ => ?_
  · obtain ⟨hcalled₁, hresolved⟩ := h₁
    obtain ⟨policy, hpolicy⟩ := hresolved decision rfl
    refine Spec.performBind trivial (fun policy' _ => ?_) fun x _ => ?_
    · -- the policy of the evaluation stays resolved
      have hstays : (request.applicationId, .ok policy) ∈
          (metering.next meter₁ (.resolve request.applicationId) (.ok policy')).resolved :=
            List.mem_cons_of_mem _ hpolicy
      have hcalled₂ : (metering.next meter₁ (.resolve request.applicationId) (.ok policy')).called =
          false := hcalled₁
      generalize metering.next meter₁ (.resolve request.applicationId) (.ok policy') =
        meter₂ at hstays hcalled₂ ⊢
      unfold invokeDecision
      dsimp only
      split
      · refine (harmless_record _ meter₂).mono fun out meter₃ h₃ => ?_
        rw [h₃.1]
        exact ⟨fun hcall => absurd hcall (by simp [hcalled₂]), fun _ _ => ⟨policy, hstays⟩⟩
      · rename_i hchain
        refine Spec.bind (spec_attemptChain_metering decision _ _ _ (Or.inl hchain) meter₂)
          (fun st meter₃ h₃ => ?_)
          fun x meter₃ h₃ => ⟨fun _ => h₃.2, fun _ h => by cases h⟩
        refine Spec.ofExceptBind (fun final _ => ?_) fun x hx =>
          ⟨fun _ => serverError_aggregateDecision hx, fun _ h => by cases h⟩
        refine (harmless_record _ meter₃).mono fun out meter₄ h₄ => ?_
        rw [h₄.1]
        refine ⟨fun _ => ?_, fun _ _ => ⟨policy, h₃.1 ▸ hstays⟩⟩
        have hends := h₄.2
        cases out with
        | ok result =>
            obtain rfl : result = _ := hends
            exact h₃.2
        | error x => exact hends
    · exact ⟨fun hcall => absurd hcall (by simp [metering, hcalled₁]), fun _ h => by cases h⟩
  · exact ⟨fun hcall => absurd hcall (by simp [h₁.1]), fun _ h => by cases h⟩

theorem spec_invokeReserved_metering (hcalled : meter.called = false)
    (idempotencyKey requestHash : String) :
    Spec metering (orchestrator.invokeReserved request idempotencyKey requestHash) CallsPaidFor
      meter := by
  refine Spec.attemptBind (spec_invokeUncached_metering hcalled) fun outcome meter₁ h₁ => ?_
  obtain ⟨hpaid, hresolved⟩ := h₁
  split
  · exact Spec.performBind trivial (fun _ _ hcall => hpaid hcall) fun y hy _ => hy
  · rename_i result
    obtain ⟨policy, hpolicy⟩ := hresolved result rfl
    refine Spec.performBind trivial (fun policy' _ => ?_) fun y hy => ?_
    · exact Spec.performBind trivial (fun _ _ hcall => hpaid hcall) fun y hy _ => hy
    · cases hy _ hpolicy

/-- **Once a model has been called, there is a result with an attempt, or a server error.** -/
theorem spec_invoke_metering (hcalled : meter.called = false) :
    Spec metering (orchestrator.invoke request) CallsPaidFor meter := by
  have huncached := (@spec_invokeUncached_metering orchestrator request meter hcalled).mono
      fun _ _ h => h.1
  have hnone : ∀ {out : Except PyException InferenceResult} {meter' : Meter},
      meter'.called = false →
      CallsPaidFor out meter' := fun h hcall => absurd hcall (by simp [h])
  unfold invoke
  split
  · exact huncached
  · split
    · refine Spec.ofExceptBind (fun requestHash _ => ?_) fun x _ => hnone hcalled
      refine Spec.performBind trivial (fun reservation _ => ?_) fun x _ => hnone hcalled
      have hcalled₁ : (metering.next meter (.reserve _ _ _) (.ok reservation)).called = false :=
        hcalled
      split
      · exact hnone hcalled₁
      · exact hnone hcalled₁
      · split
        · exact hnone hcalled₁
        · exact hnone hcalled₁
      · exact spec_invokeReserved_metering hcalled₁ _ _
    · exact huncached

end UseCase

/-! ## Events -/

/-- The meter of the calls of an event. -/
def apiMetering : Monitor ApiPorts Meter where
  owes _ _ := True
  relies meter port reply := match port, reply with
    | .ofPort port, reply => metering.relies meter port reply
    | .getDecision _, _ => True
  next meter port reply := match port, reply with
    | .ofPort port, reply => metering.next meter port reply
    | .getDecision _, _ => meter

/-- Once a model has been called, the response is a success or a server error. -/
def ResponsePaidFor (statusCode : Nat) (meter : Meter) : Prop :=
  meter.called = true → statusCode = 200 ∨ 500 ≤ statusCode

section Events
variable {services : HandlerServices} {event : ProxyEvent} {request : InferenceRequest}

theorem spec_serveInference_metering (requestId : String) :
    Spec metering (serveInference services.orchestrator requestId request)
      (fun out meter => ∃ answer, out = .ok answer ∧
        ResponsePaidFor answer.answers.1 meter) {} := by
  refine Spec.attemptBind (spec_invoke_metering rfl) fun outcome meter hpaid => ?_
  cases outcome with
  | error x => exact ⟨_, rfl, fun hcall => Or.inr (hpaid hcall requestId)⟩
  | ok result =>
      dsimp only
      split
      · refine ⟨_, rfl, fun hcall => Or.inr ?_⟩
        have hattempts : result.invocationAttempts ≠ [] := hpaid hcall
        simp [noSelection, InferenceResponse.answers, mapNoSelectionToStatusAndBody, hattempts]
      · exact ⟨_, rfl, fun _ => Or.inl rfl⟩

theorem spec_dispatch_metering : Spec apiMetering (services.dispatch event)
    (fun out meter => ∃ response, out = .ok response ∧
      ResponsePaidFor response.statusCode meter) {} := by
  have huncalled : ∀ {statusCode : Nat} {meter : Meter}, meter.called = false →
      ResponsePaidFor statusCode meter :=
    fun h hcall => absurd hcall (by simp [h])
  have hhandle : Spec apiMetering (services.handleRoute event event.requestIdText)
      (fun out meter => ∀ response, out = .ok response →
        ResponsePaidFor response.statusCode meter) {} := by
    unfold handleRoute
    split
    · exact fun _ _ => huncalled rfl
    · exact fun _ _ => huncalled rfl
    · unfold handleInference
      split
      · exact fun _ _ => huncalled rfl
      · exact fun _ _ => huncalled rfl
      · rename_i request _
        have hserve := spec_served (N := apiMetering)
            (@spec_serveInference_metering services request event.requestIdText)
          (fun _ _ _ => trivial) (fun _ _ _ => id) fun _ _ _ => rfl
        refine Spec.bind hserve (fun answer meter hanswer => ?_) fun x meter hanswer => ?_
        · obtain ⟨answer', hsame, hpaid⟩ := hanswer
          cases hsame
          rintro response ⟨⟩
          cases answer <;> exact hpaid
        · obtain ⟨answer', hsame, -⟩ := hanswer
          cases hsame
    · unfold handleRoutesEvaluate
      split
      · exact fun _ _ => huncalled rfl
      · exact fun _ _ => huncalled rfl
      · rename_i request _
        have honly : Only (fun port : Port => ∀ request, port ≠ .invoke request)
            (services.routeService.evaluate request) := by
          refine (services.routeService.only_evaluate request).mono ?_
          rintro _ hport request rfl
          exact hport
        have hserve := spec_served (N := apiMetering) (spec_uncalled honly {}) (fun _ _ _ =>
            trivial) (fun _ _ _ => id)
          fun _ _ _ => rfl
        refine Spec.attemptBind hserve fun outcome meter hmeter => ?_
        cases outcome <;> exact fun _ _ => huncalled hmeter.1
    · exact fun _ _ => huncalled rfl
    · unfold handleGetDecision
      split
      · exact fun _ _ => huncalled rfl
      · exact fun _ _ => huncalled rfl
      · refine Spec.performBind trivial (fun found _ => ?_) fun _ _ _ _ => huncalled rfl
        split
        · exact fun _ _ => huncalled rfl
        · split <;> exact fun _ _ => huncalled rfl
    · exact fun _ _ => huncalled rfl
  refine Spec.attemptBind hhandle fun outcome meter hpaid => ?_
  cases outcome with
  | ok response => exact ⟨response, rfl, hpaid response rfl⟩
  | error x => exact ⟨_, rfl, fun _ => Or.inr (Nat.le_refl 500)⟩

end Events

/-! ## What the ports keep -/

section Kept
variable {tr : List (Event ApiPorts)} {meter : Meter}

/-- A resolved policy does not change, and no other port raises what is answered as a client
error. -/
structure Settled (tr : List (Event ApiPorts)) : Prop where
  policies : ∀ applicationId reply reply',
    (⟨.ofPort (.resolve applicationId), reply⟩ : Event ApiPorts) ∈ tr →
    (⟨.ofPort (.resolve applicationId), reply'⟩ : Event ApiPorts) ∈ tr → reply = reply'
  raised : ∀ port x, (⟨.ofPort port, .error x⟩ : Event ApiPorts) ∈ tr →
    (∃ applicationId, port = .resolve applicationId) ∨ ServerError x

theorem kept_metering (h : Settled tr)
    (hmeter : ∀ applicationId first reply, (applicationId, first) ∈ meter.resolved →
    (⟨.ofPort (.resolve applicationId), reply⟩ : Event ApiPorts) ∈ tr →
    reply = first) : apiMetering.Kept meter tr := by
  induction tr generalizing meter with
  | nil => trivial
  | cons ev tr ih =>
      have hrest : Settled tr :=
        ⟨fun applicationId reply reply' hreply hreply' =>
          h.policies applicationId reply reply' (.tail _ hreply) (.tail _ hreply'),
          fun port x hx => h.raised port x (.tail _ hx)⟩
      have hstays : ∀ applicationId first reply, (applicationId, first) ∈ meter.resolved →
          (⟨.ofPort (.resolve applicationId), reply⟩ : Event ApiPorts) ∈ tr → reply = first :=
        fun applicationId first reply hfirst hreply =>
          hmeter applicationId first reply hfirst (.tail _ hreply)
      obtain ⟨port, reply⟩ := ev
      cases port with
      | getDecision decisionId => exact ⟨trivial, ih hrest hstays⟩
      | ofPort port =>
          cases port with
          | resolve applicationId =>
              refine ⟨fun first hfirst =>
                hmeter applicationId first reply hfirst List.mem_cons_self, ih hrest ?_⟩
              intro applicationId' first reply' hfirst hreply'
              rcases List.mem_cons.mp hfirst with hsame | hfirst
              · cases hsame
                exact h.policies applicationId reply' reply (.tail _ hreply') List.mem_cons_self
              · exact hstays applicationId' first reply' hfirst hreply'
          | _ =>
            refine ⟨?_, ih hrest hstays⟩
            cases reply with
            | ok a => trivial
            | error x =>
                rcases h.raised _ x List.mem_cons_self with ⟨applicationId, hport⟩ | hserver
                · cases hport
                · exact hserver

theorem called_after (h : meter.called = true ∨ ∃ request reply,
    (⟨.ofPort (.invoke request), reply⟩ : Event ApiPorts) ∈ tr) :
      (apiMetering.after meter tr).called = true := by
  induction tr generalizing meter with
  | nil => simpa [Monitor.after] using h
  | cons ev tr ih =>
      refine ih ?_
      rcases h with h | ⟨request, reply, hmem⟩
      · left
        obtain ⟨port, reply⟩ := ev
        cases port with
        | getDecision decisionId => exact h
        | ofPort port => cases port <;> first | exact h | rfl
      · rcases List.mem_cons.mp hmem with rfl | hmem
        · exact Or.inl rfl
        · exact Or.inr ⟨request, reply, hmem⟩

end Kept

/-- **An event that is answered with a client error has called no model.** -/
theorem client_errors_free (services : HandlerServices) (event : ProxyEvent)
    (tr : List (Event ApiPorts))
    (response : HttpReply) (h : Run (services.dispatch event) tr (.ok response))
    (hsettled : Settled tr)
    (hclient : 400 ≤ response.statusCode ∧ response.statusCode < 500) (request : ProviderRequest)
    (reply : Except PyException ProviderResponse) :
      (⟨.ofPort (.invoke request), reply⟩ : Event ApiPorts) ∉ tr := by
  intro hinvoked
  obtain ⟨response', hsame, hpaid⟩ :=
    spec_dispatch_metering.run h (kept_metering hsettled fun _ _ _ hmem => by cases hmem)
  cases hsame
  rcases hpaid (called_after (Or.inr ⟨request, reply, hinvoked⟩)) with hok | hserver
  · omega
  · omega

namespace Scenario

/-- The call has been answered. -/
def answeredEvent : Event ApiPorts → Bool
  | ⟨_, .ok _⟩ => true
  | ⟨_, .error _⟩ => false

/-- A capability that the policy does not allow is answered 422. -/
theorem barred_free : ∃ response, Run (services.dispatch postInference)
    (trace (apiAnswer barred) (services.dispatch postInference) fresh) (.ok response) ∧
    response.statusCode = 422 ∧
      ∀ request reply, (⟨.ofPort (.invoke request), reply⟩ : Event ApiPorts) ∉
        trace (apiAnswer barred) (services.dispatch postInference) fresh := by
  have hstatus : (exec (apiAnswer barred) (services.dispatch postInference) fresh).1.toOption.map
      (·.statusCode) = some 422 := by decide +kernel
  have hanswered : (trace (apiAnswer barred) (services.dispatch postInference) fresh).all
      answeredEvent = true := by
    decide +kernel
  have hsettled : Settled (trace (apiAnswer barred) (services.dispatch postInference) fresh) := by
    refine ⟨fun applicationId reply reply' hreply hreply' => ?_, fun port x hx => ?_⟩
    · obtain ⟨s, hs⟩ := mem_trace hreply
      obtain ⟨s', hs'⟩ := mem_trace hreply'
      exact hs.trans hs'.symm
    · cases List.all_eq_true.mp hanswered _ hx
  obtain ⟨response, hrun, hresponse⟩ := run_of_exec hstatus
  exact ⟨response, hrun, hresponse,
    client_errors_free services postInference _ response hrun hsettled (by omega)⟩

end Scenario

end ModelRouter
