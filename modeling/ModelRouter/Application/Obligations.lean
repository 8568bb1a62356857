import ModelRouter.Application.CandidateChain

/-!
# Obligations at an attempt

What an observer asks of the orchestrator at the calls of an attempt: of the provider, and of the
health repository. If an evaluation leaves a chain whose aliases `MayBeAttempted`, both use cases
meet the obligation on every run (`spec_invoke`, `spec_invokeStream`).
-/

namespace ModelRouter
open Effects Prog RouteEvaluationService

/-- The ports of an attempt. -/
def AttemptPort : Port → Prop
  | .invoke _ | .invokeStream _ | .recordOutcome _ _ => True
  | _ => False

/-- What is owed at a call, knowing the events before it, while the replies keep to `keeps`. -/
structure Obligation where
  owes : List (Event Ports) → Port → Prop
  keeps : (port : Port) → Except PyException port.Answer → Prop
  elsewhere : ∀ tr port, ¬ AttemptPort port → owes tr port
  mono : ∀ {tr tr' port}, owes tr port → (∀ ev ∈ tr, ev ∈ tr') → owes tr' port

namespace Obligation

variable (obligation : Obligation)

def monitor : Monitor Ports (List (Event Ports)) := Monitor.history obligation.owes obligation.keeps

/-- An attempt at the model meets the obligation. -/
structure MayBeAttempted (request : InferenceRequest) (effective : EffectiveRoutingRequirements)
    (tr : List (Event Ports)) (modelAlias : String) : Prop where
  invoke : obligation.owes tr
    (.invoke (InvocationOrchestrator.providerRequest request effective modelAlias))
  invokeStream :
    obligation.owes tr (.invokeStream
      (InvocationOrchestrator.providerRequest request effective modelAlias))
  recordOutcome : ∀ status, obligation.owes tr (.recordOutcome modelAlias status)

variable {obligation} {request : InferenceRequest} {effective : EffectiveRoutingRequirements}
  {past tr : List (Event Ports)} {modelAlias : String} {chain : List String}

theorem MayBeAttempted.mono (h : obligation.MayBeAttempted request effective past modelAlias)
    (htr : ∀ ev ∈ past, ev ∈ tr) : obligation.MayBeAttempted request effective tr modelAlias :=
  ⟨obligation.mono h.invoke htr, obligation.mono h.invokeStream htr,
    fun status => obligation.mono (h.recordOutcome status) htr⟩

/-- Every evaluation whose replies keep to the obligation leaves a chain that may be attempted. -/
def Admits (obligation : Obligation) (service : RouteEvaluationService)
    (request : InferenceRequest) : Prop :=
  ∀ tr decision (policy : RoutingPolicy), Run (service.evaluate request) tr (.ok decision) →
    (∀ ev ∈ tr, obligation.keeps ev.call ev.reply) →
    obligation.keeps (.resolve request.applicationId) (.ok policy) →
    ∀ modelAlias ∈ InvocationOrchestrator.buildCandidateChain decision policy.fallbackPolicy,
      obligation.MayBeAttempted request (resolveEffectiveRequirements request.requirements policy)
        tr modelAlias

end Obligation

namespace InvocationOrchestrator
open Obligation

variable {obligation : Obligation} {orchestrator : InvocationOrchestrator}
  {request : InferenceRequest}
  {decision : RoutingDecision} {effective : EffectiveRoutingRequirements}
  {past tr : List (Event Ports)} {modelAlias : String} {chain : List String}

/-! ## The parts -/

theorem spec_elsewhere {α : Type} {p : Prog Ports α} (h : Only (fun port => ¬ AttemptPort port) p) :
    Spec obligation.monitor p (fun _ tr => ∀ ev ∈ past, ev ∈ tr) past := by
  refine Spec.of_run h (fun tr port hport => obligation.elsewhere tr port hport) fun tr out _ _ =>
    ?_
  rw [Obligation.monitor, after_history]
  exact fun ev hev => List.mem_append_left _ hev

theorem spec_ask_bind {α : Type} {port : Port} {f : port.Answer → Prog Ports α}
    {Q : Except PyException α → List (Event Ports) → Prop} (h : ¬ AttemptPort port)
    (hok : ∀ a, obligation.keeps port (.ok a) →
      Spec obligation.monitor (f a) Q (past ++ [⟨port, .ok a⟩]))
    (herr : ∀ x, Q (.error x) (past ++ [⟨port, .error x⟩])) :
    Spec obligation.monitor (ask port >>= f) Q past :=
  Spec.performBind (obligation.elsewhere _ _ h) hok fun x _ => herr x

theorem spec_record (result : InferenceResult) :
    Spec obligation.monitor (orchestrator.record result) (fun _ _ => True) past := by
  refine (orchestrator.only_record result).trivial_spec fun tr port h =>
    obligation.elsewhere tr port ?_
  cases port <;> first | exact id | exact h.elim

theorem spec_finalizeStream (succeededAlias : Option String)
    (extraReasonCodes : List RoutingReasonCode) (attempts : List InvocationAttempt) :
    Spec obligation.monitor (orchestrator.finalizeStream decision succeededAlias
      extraReasonCodes attempts)
      (fun _ _ => True) past :=
  Spec.ofExceptBind (fun _ _ => spec_record _) fun _ _ => trivial

theorem spec_recordHealthOutcome (status : InvocationAttemptStatus)
    (h : obligation.MayBeAttempted request effective past modelAlias) :
    Spec obligation.monitor (orchestrator.recordHealthOutcome modelAlias status)
      (fun _ tr => ∀ ev ∈ past, ev ∈ tr) past := by
  unfold recordHealthOutcome
  split
  · exact Spec.perform (h.recordOutcome status) fun _ _ ev hev => List.mem_append_left _ hev
  · exact fun ev hev => hev

/-! ## The attempt loops -/

theorem spec_attemptChain (chain : List String) (st : Attempts)
    (hchain : ∀ modelAlias ∈ chain, obligation.MayBeAttempted request effective past modelAlias) :
    Spec obligation.monitor (orchestrator.attemptChain request decision effective chain st)
      (fun _ _ => True) past := by
  induction chain generalizing st past with
  | nil => trivial
  | cons modelAlias chain ih =>
      have hhead := hchain modelAlias List.mem_cons_self
      refine spec_ask_bind id (fun startedAt _ => ?_) fun _ => trivial
      refine Spec.tryPerformBind (hhead.mono fun ev hev =>
        List.mem_append_left _ hev).invoke fun reply _ => ?_
      split
      · refine spec_ask_bind id (fun finishedAt _ => ?_) fun _ => trivial
        refine Spec.bind (spec_recordHealthOutcome _ (hhead.mono ?_)) (fun _ tr htr =>
          ?_) fun _ _ _ => trivial
        · exact fun ev hev => List.mem_append_left _
            (List.mem_append_left _ (List.mem_append_left _ hev))
        split
        · trivial
        · refine ih _ fun modelAlias' hmem =>
            (hchain modelAlias' (List.mem_cons_of_mem _ hmem)).mono ?_
          intro ev hev
          exact htr ev (List.mem_append_left _
            (List.mem_append_left _ (List.mem_append_left _ hev)))
      · trivial
      · refine spec_ask_bind id (fun finishedAt _ => ?_) fun _ => trivial
        refine Spec.bind (spec_recordHealthOutcome _ (hhead.mono ?_)) (fun _ _ _ =>
          trivial) fun _ _ _ => trivial
        exact fun ev hev => List.mem_append_left _
          (List.mem_append_left _ (List.mem_append_left _ hev))

theorem only_yieldFrom (stream : ChunkStream) :
    Only (fun port => ¬ AttemptPort port) (yieldFrom stream) := by
  refine Only.bind ?_ fun _ => ?_
  · induction stream.chunks with
    | nil => trivial
    | cons chunk chunks ih => exact Only.bind (Only.perform id) fun _ => ih
  · cases stream.failure <;> trivial

theorem spec_streamCommitted (startedAt : Nat) (stream : ProviderResponseChunk × ChunkStream)
    (st : Attempts) (h : obligation.MayBeAttempted request effective past modelAlias) :
    Spec obligation.monitor (orchestrator.streamCommitted decision modelAlias startedAt stream st)
      (fun _ _ => True) past := by
  have honly : Only (fun port => ¬ AttemptPort port)
      (do ask (.yieldChunk stream.1); yieldFrom stream.2 : Prog Ports Unit).attempt :=
    Only.attempt (Only.bind (Only.perform id) fun _ => only_yieldFrom stream.2)
  refine Spec.bind (spec_elsewhere honly) (fun outcome tr htr => ?_) fun _ _ _ => trivial
  have hcommitted := h.mono htr
  cases outcome with
  | ok _ =>
      refine spec_ask_bind id (fun finishedAt _ => ?_) fun _ => trivial
      refine Spec.bind (spec_recordHealthOutcome _ (hcommitted.mono ?_)) (fun _ _ _ =>
        spec_finalizeStream _ _ _)
        fun _ _ _ => trivial
      exact fun ev hev => List.mem_append_left _ hev
  | error x =>
      cases x with
      | providerError message category =>
          refine spec_ask_bind id (fun finishedAt _ => ?_) fun _ => trivial
          refine Spec.bind (spec_recordHealthOutcome _ (hcommitted.mono ?_)) (fun _ _ _ =>
            ?_) fun _ _ _ => trivial
          · exact fun ev hev => List.mem_append_left _ hev
          · exact Spec.bind (spec_finalizeStream _ _ _) (fun _ _ _ => trivial) fun _ _ _ => trivial
      | _ => trivial

theorem spec_streamChain (chain : List String) (st : Attempts)
    (hchain : ∀ modelAlias ∈ chain, obligation.MayBeAttempted request effective past modelAlias) :
    Spec obligation.monitor (orchestrator.streamChain request decision effective chain st)
      (fun _ _ => True) past := by
  induction chain generalizing st past with
  | nil => exact spec_finalizeStream _ _ _
  | cons modelAlias chain ih =>
      have hhead := hchain modelAlias List.mem_cons_self
      refine spec_ask_bind id (fun startedAt _ => ?_) fun _ => trivial
      refine Spec.tryPerformBind (hhead.mono fun ev hev =>
        List.mem_append_left _ hev).invokeStream fun reply _ => ?_
      split
      · refine spec_ask_bind id (fun finishedAt _ => ?_) fun _ => trivial
        refine Spec.bind (spec_recordHealthOutcome _ (hhead.mono ?_)) (fun _ tr htr =>
          ?_) fun _ _ _ => trivial
        · exact fun ev hev => List.mem_append_left _
            (List.mem_append_left _ (List.mem_append_left _ hev))
        split
        · exact spec_finalizeStream _ _ _
        · refine ih _ fun modelAlias' hmem =>
            (hchain modelAlias' (List.mem_cons_of_mem _ hmem)).mono ?_
          intro ev hev
          exact htr ev (List.mem_append_left _
            (List.mem_append_left _ (List.mem_append_left _ hev)))
      · trivial
      · refine spec_streamCommitted _ _ _ (hhead.mono ?_)
        exact fun ev hev => List.mem_append_left _ (List.mem_append_left _ hev)

/-! ## The use cases -/

section UseCases

variable (hadmits : obligation.Admits orchestrator.routeEvaluationService request)
include hadmits

/-- Both use cases evaluate the route, resolve the policy again and go on with a chain that may be
attempted. -/
theorem spec_evaluated (rest : RoutingDecision → RoutingPolicy → Prog Ports InferenceResult)
    (hrest : ∀ decision (policy : RoutingPolicy) tr,
      (∀ modelAlias ∈ buildCandidateChain decision policy.fallbackPolicy,
      obligation.MayBeAttempted request (resolveEffectiveRequirements request.requirements policy)
        tr modelAlias) →
      Spec obligation.monitor (rest decision policy) (fun _ _ => True) tr) :
    Spec obligation.monitor
      (do
        let decision ← orchestrator.routeEvaluationService.evaluate request
        let policy ← ask (.resolve request.applicationId)
        rest decision policy) (fun _ _ => True) past := by
  have honly : Only (fun port => ¬ AttemptPort port)
      (orchestrator.routeEvaluationService.evaluate request) := by
    refine (orchestrator.routeEvaluationService.only_evaluate request).mono fun port h => ?_
    cases port <;> first | exact id | exact h.elim
  have hevaluate : Spec obligation.monitor (orchestrator.routeEvaluationService.evaluate request)
      (fun out tr => ∀ decision, out = .ok decision → ∀ policy : RoutingPolicy,
        obligation.keeps (.resolve request.applicationId) (.ok policy) →
        ∀ modelAlias ∈ buildCandidateChain decision policy.fallbackPolicy,
          obligation.MayBeAttempted request
            (resolveEffectiveRequirements request.requirements policy) tr
            modelAlias) past := by
    refine Spec.of_run honly (fun tr port hport => obligation.elsewhere tr port hport) ?_
    rintro tr out hrun hkept decision rfl policy hpolicy modelAlias hmem
    rw [Obligation.monitor, after_history]
    refine (hadmits tr decision policy hrun ?_ hpolicy modelAlias hmem).mono fun ev hev =>
      List.mem_append_right _ hev
    exact fun ev hev => of_kept_history hkept hev
  refine Spec.bind hevaluate (fun decision tr hchain => ?_) fun _ _ _ => trivial
  refine spec_ask_bind id (fun policy hpolicy => ?_) fun _ => trivial
  refine hrest decision policy _ fun modelAlias hmem => ?_
  exact (hchain decision rfl policy hpolicy modelAlias hmem).mono fun ev hev =>
    List.mem_append_left _ hev

theorem spec_invokeUncached :
    Spec obligation.monitor (orchestrator.invokeUncached request) (fun _ _ => True) past := by
  refine spec_evaluated hadmits _ fun decision policy tr hchain => ?_
  unfold invokeDecision
  dsimp only
  split
  · exact spec_record _
  · refine Spec.bind (spec_attemptChain _ _ hchain) (fun st _ _ => ?_) fun _ _ _ => trivial
    exact Spec.ofExceptBind (fun _ _ => spec_record _) fun _ _ => trivial

theorem spec_invokeReserved (idempotencyKey requestHash : String) :
    Spec obligation.monitor (orchestrator.invokeReserved request idempotencyKey requestHash)
      (fun _ _ => True) past := by
  refine Spec.bind (Spec.attempt_true (spec_invokeUncached hadmits)) (fun outcome _ _ =>
    ?_) fun _ _ _ => trivial
  split
  · exact spec_ask_bind id (fun _ _ => trivial) fun _ => trivial
  · refine spec_ask_bind id (fun _ _ => ?_) fun _ => trivial
    exact spec_ask_bind id (fun _ _ => trivial) fun _ => trivial

/-- **`invoke` meets the obligation.** -/
theorem spec_invoke : Spec obligation.monitor (orchestrator.invoke request) (fun _ _ =>
    True) past := by
  unfold invoke
  split
  · exact spec_invokeUncached hadmits
  · split
    · refine Spec.ofExceptBind (fun requestHash _ => ?_) fun _ _ => trivial
      refine spec_ask_bind id (fun reservation _ => ?_) fun _ => trivial
      split
      · trivial
      · trivial
      · split <;> trivial
      · exact spec_invokeReserved hadmits _ _
    · exact spec_invokeUncached hadmits

/-- **`invoke_stream` meets the obligation.** -/
theorem spec_invokeStream :
    Spec obligation.monitor (orchestrator.invokeStream request) (fun _ _ => True) past := by
  unfold invokeStream
  split
  · trivial
  · split
    · trivial
    · refine Spec.bind (Spec.attempt_true ?_) (fun outcome _ _ => ?_) fun _ _ _ => trivial
      · refine spec_evaluated hadmits _ fun decision policy tr hchain => ?_
        unfold streamDecision
        dsimp only
        split
        · exact spec_finalizeStream _ _ _
        · exact spec_streamChain _ _ hchain
      · split <;> trivial

end UseCases

end InvocationOrchestrator

end ModelRouter
