import ModelRouter.Application.Orchestrator

/-!
# The ledger of the model calls

`accounting` observes which models a use case has called and how the calls ended.

* `spec_invoke_accounting` : what is saved, published or cached lists exactly the calls that have
  been made, in order, and the metrics are published at most once.
-/

namespace ModelRouter
open Effects Prog InvocationOrchestrator

/-- The alias of a model that is called, and how the call ends: an exception that is no
`ProviderError` has no status. -/
abbrev ModelCall : Type := String × Option InvocationAttemptStatus

def callStatus : Except PyException ProviderResponse → Option InvocationAttemptStatus
  | .ok _ => some .succeeded
  | .error (.providerError _ category) => some (statusForProviderErrorCategory category)
  | .error _ => none

def InvocationAttempt.call (attempt : InvocationAttempt) : ModelCall :=
  (attempt.modelAlias, some attempt.status)

/-- The calls that have been made, the first first, and whether their metrics are published. -/
structure CallLedger where
  calls : List ModelCall := []
  published : Bool := false

namespace CallLedger

/-- The attempts are the calls. -/
def Accounts (ledger : CallLedger) (attempts : List InvocationAttempt) : Prop :=
  attempts.map InvocationAttempt.call = ledger.calls

def after (ledger : CallLedger) : (port : Port) → Except PyException port.Answer → CallLedger
  | .invoke providerRequest, reply =>
    { ledger with calls := ledger.calls ++ [(providerRequest.modelAlias, callStatus reply)] }
  | .publishMetrics _, .ok _ => { ledger with published := true }
  | _, _ => ledger

/-- Models are called before the metrics are published; whatever names attempts names the calls. -/
def Allows (ledger : CallLedger) : Port → Prop
  | .invoke _ => ledger.published = false
  | .invokeStream _ | .yieldChunk _ => False
  | .publishMetrics result => ledger.published = false ∧ ledger.Accounts result.invocationAttempts
  | .save auditRecord => ledger.Accounts auditRecord.invocationAttempts
  | .publishEvent result | .complete _ _ _ result _ _ => ledger.Accounts result.invocationAttempts
  | _ => True

end CallLedger

def accounting : Monitor Ports CallLedger where
  owes ledger port := ledger.Allows port
  relies _ _ _ := True
  next ledger port reply := ledger.after port reply

section
variable {orchestrator : InvocationOrchestrator} {request : InferenceRequest} {ledger : CallLedger}

/-- The attempts of what is returned are the calls. -/
def AccountedFor (out : Except PyException InferenceResult) (ledger : CallLedger) : Prop :=
  ∀ result, out = .ok result → ledger.Accounts result.invocationAttempts

theorem accountedFor_error {x : PyException} : AccountedFor (.error x) ledger :=
  fun _ h => by cases h

theorem spec_evaluate_accounting (service : RouteEvaluationService) (ledger : CallLedger) :
    Spec accounting (service.evaluate request) (fun _ ledger' => ledger' = ledger) ledger := by
  refine (service.only_evaluate request).spec fun port hport => ?_
  cases port <;> first | exact hport.elim | exact ⟨trivial, fun reply => by cases reply <;> rfl⟩

theorem spec_recordHealthOutcome_accounting (modelAlias : String) (status : InvocationAttemptStatus)
    (ledger : CallLedger) :
    Spec accounting (orchestrator.recordHealthOutcome modelAlias status) (fun _ ledger' =>
      ledger' = ledger) ledger := by
  refine (orchestrator.only_recordHealthOutcome modelAlias status).spec fun port hport => ?_
  cases port <;> first | exact hport.elim | exact ⟨trivial, fun reply => by cases reply <;> rfl⟩

theorem spec_record_accounting {result : InferenceResult} (hpublished : ledger.published = false)
    (haccounts : ledger.Accounts result.invocationAttempts) :
    Spec accounting (orchestrator.record result) AccountedFor ledger := by
  have hpersist : Spec accounting (orchestrator.persist result) (fun _ ledger' =>
      ledger' = ledger) ledger := by
    unfold persist
    split
    · exact Spec.perform haccounts fun reply _ => by cases reply <;> rfl
    · rfl
  have hmetrics : Spec accounting (orchestrator.publishMetrics result) (fun _ ledger' =>
      ledger'.calls = ledger.calls)
      ledger := by
    unfold publishMetrics
    split
    · exact Spec.perform ⟨hpublished, haccounts⟩ fun reply _ => by cases reply <;> rfl
    · rfl
  refine Spec.bind hpersist (fun _ ledger₁ hsame => ?_) fun _ _ _ => accountedFor_error
  subst hsame
  refine Spec.bind hmetrics (fun _ ledger₂ hcalls => ?_) fun _ _ _ => accountedFor_error
  have haccounts₂ : ledger₂.Accounts result.invocationAttempts := haccounts.trans hcalls.symm
  have hevent : Spec accounting (orchestrator.publishDecisionEvent result) (fun _ ledger' =>
      ledger' = ledger₂) ledger₂ := by
    unfold publishDecisionEvent
    split
    · exact Spec.perform haccounts₂ fun reply _ => by cases reply <;> rfl
    · rfl
  refine Spec.bind hevent (fun _ ledger₃ hsame => ?_) fun _ _ _ => accountedFor_error
  subst hsame
  rintro result' ⟨⟩
  exact haccounts₂

theorem spec_attemptChain_accounting (decision : RoutingDecision)
    (effective : EffectiveRoutingRequirements)
    (chain : List String) (st : Attempts) (ledger : CallLedger)
    (hpublished : ledger.published = false) (haccounts : ledger.Accounts st.attempts) :
    Spec accounting (orchestrator.attemptChain request decision effective chain st)
      (fun out ledger' => ledger'.published = false ∧ ∀ st', out = .ok st' →
        ledger'.Accounts st'.attempts) ledger := by
  induction chain generalizing st ledger with
  | nil =>
      refine ⟨hpublished, ?_⟩
      rintro st' ⟨⟩
      exact haccounts
  | cons candidateAlias chain ih =>
      unfold attemptChain
      refine Spec.performBind trivial (fun startedAt _ => ?_) fun _ _ =>
        ⟨hpublished, fun _ h => by cases h⟩
      refine Spec.tryPerformBind hpublished fun reply _ => ?_
      have hcalled : ∀ status latency, callStatus reply = some status →
          (ledger.after (.invoke (providerRequest request effective candidateAlias)) reply).Accounts
            (st.attempts ++ [⟨candidateAlias, status, latency⟩]) := by
        intro status latency hstatus
        show List.map InvocationAttempt.call _ = ledger.calls ++
            [(candidateAlias, callStatus reply)]
        rw [List.map_append, show st.attempts.map InvocationAttempt.call =
          ledger.calls from haccounts, hstatus]
        rfl
      change Spec accounting _ _
        (ledger.after (.invoke (providerRequest request effective candidateAlias)) reply)
      have hunpublished : (ledger.after (.invoke (providerRequest request effective candidateAlias))
          reply).published = false := hpublished
      generalize ledger.after (.invoke (providerRequest request effective candidateAlias)) reply =
        called
        at hcalled hunpublished ⊢
      cases reply with
      | ok response =>
          refine Spec.performBind trivial (fun finishedAt _ => ?_) fun _ _ =>
            ⟨hunpublished, fun _ h => by cases h⟩
          refine Spec.bind (spec_recordHealthOutcome_accounting _ _ called)
            (fun _ ledger' hsame => ?_)
            fun _ ledger' hsame => ?_
          · subst hsame
            refine ⟨hunpublished, ?_⟩
            rintro st' ⟨⟩
            exact hcalled .succeeded _ rfl
          · subst hsame
            exact ⟨hunpublished, fun _ h => by cases h⟩
      | error x =>
          cases x with
          | providerError message category =>
              refine Spec.performBind trivial (fun finishedAt _ => ?_) fun _ _ =>
                ⟨hunpublished, fun _ h => by cases h⟩
              refine Spec.bind (spec_recordHealthOutcome_accounting _ _ called)
                (fun _ ledger' hsame => ?_)
                fun _ ledger' hsame => ?_
              · subst hsame
                have hfailed := hcalled (statusForProviderErrorCategory category)
                    (latencyMs startedAt finishedAt) rfl
                split
                · refine ⟨hunpublished, ?_⟩
                  rintro st' ⟨⟩
                  exact hfailed
                · exact ih _ _ hunpublished hfailed
              · subst hsame
                exact ⟨hunpublished, fun _ h => by cases h⟩
          | _ => exact ⟨hunpublished, fun _ h => by cases h⟩

theorem spec_invokeUncached_accounting :
    Spec accounting (orchestrator.invokeUncached request) AccountedFor {} := by
  refine Spec.bind (spec_evaluate_accounting _ {}) (fun decision ledger hsame => ?_) fun _ _ _ =>
    accountedFor_error
  subst hsame
  refine Spec.performBind trivial (fun policy _ => ?_) fun _ _ => accountedFor_error
  change Spec accounting _ _ {}
  unfold invokeDecision
  dsimp only
  split
  · exact spec_record_accounting rfl rfl
  · refine Spec.bind (spec_attemptChain_accounting decision _ _ {} {} rfl rfl)
      (fun st ledger h => ?_)
      fun _ _ _ => accountedFor_error
    refine Spec.ofExceptBind (fun final _ => ?_) fun _ _ => accountedFor_error
    exact spec_record_accounting h.1 (h.2 st rfl)

/-- **Whatever is saved, published or cached lists exactly the calls of models that have been
made.** -/
theorem spec_invoke_accounting :
    Spec accounting (orchestrator.invoke request) (fun _ _ => True) {} := by
  have huncached := @spec_invokeUncached_accounting orchestrator request
  unfold invoke
  split
  · exact huncached.mono fun _ _ _ => trivial
  · split
    · refine Spec.ofExceptBind (fun requestHash _ => ?_) fun _ _ => trivial
      refine Spec.performBind trivial (fun reservation _ => ?_) fun _ _ => trivial
      change Spec accounting _ _ {}
      split
      · trivial
      · trivial
      · split <;> trivial
      · refine Spec.attemptBind huncached fun outcome ledger haccounted => ?_
        split
        · exact Spec.performBind trivial (fun _ _ => trivial) fun _ _ => trivial
        · rename_i result
          refine Spec.performBind trivial (fun policy _ => ?_) fun _ _ => trivial
          exact Spec.performBind (haccounted result rfl) (fun _ _ => trivial) fun _ _ => trivial
    · exact huncached.mono fun _ _ _ => trivial

end

end ModelRouter
