import ModelRouter.Application.AttemptLoop
import ModelRouter.Application.World

/-!
# The fallback semantics

`run_invokeDecision` : what the result of a decision is, in terms of the calls of its attempt loop;
`returns_invokeDecision` : if every port answers, there is a result. `invoke_fallback` puts both
together for a whole run of `invoke`.
-/

namespace ModelRouter
open Effects Prog RouteEvaluationService

namespace InvocationOrchestrator

variable {orchestrator : InvocationOrchestrator} {request : InferenceRequest}
  {decision : RoutingDecision} {policy : RoutingPolicy} {tr : List (Event Ports)}

/-! ## The result of a decision -/

/-- The result of the calls made for a decision. -/
structure Concluded (decision : RoutingDecision) (chain : List String) (calls : List ProviderCall)
    (result : InferenceResult) : Prop where
  attempts : result.invocationAttempts = calls.map (·.attempt)
  response : result.response = (succeededCall calls).map (·.2)
  not_attempted : chain = [] → result.decision = decision
  attempted : chain ≠ [] → aggregateDecision decision ((succeededCall calls).map (·.1.modelAlias))
    (calls.flatMap (·.codes decision)) = .ok result.decision

theorem run_record {result result' : InferenceResult}
    (h : Run (orchestrator.record result) tr (.ok result')) :
    result' = result ∧ providerCalls tr = [] ∧ recordedOutcomes tr = [] := by
  have honly := (orchestrator.only_record result).run h
  refine ⟨?_, providerCalls_eq_nil ?_, recordedOutcomes_eq_nil ?_⟩
  · obtain ⟨_, _, _, _, _, h₁⟩ := (run_bind_ok_iff _ _ _ _).mp h
    obtain ⟨_, _, _, _, _, h₂⟩ := (run_bind_ok_iff _ _ _ _).mp h₁
    obtain ⟨_, _, _, _, _, h₃⟩ := (run_bind_ok_iff _ _ _ _).mp h₂
    exact Except.ok.inj ((run_ret_iff _ _ _).mp h₃).2
  · intro ev hev preq hcall
    have hport := honly ev hev
    rw [hcall] at hport
    exact hport
  · intro ev hev modelAlias status hcall
    have hport := honly ev hev
    rw [hcall] at hport
    exact hport

/-- **What the result of a decision is.** -/
theorem run_invokeDecision {result : InferenceResult}
    (h : Run (orchestrator.invokeDecision request decision policy) tr (.ok result)) :
    ∃ calls, Tried (buildCandidateChain decision policy.fallbackPolicy) calls ∧
      Concluded decision (buildCandidateChain decision policy.fallbackPolicy) calls result ∧
      providerCalls tr = calls.map (fun call =>
        (providerRequest request (resolveEffectiveRequirements request.requirements policy)
          call.modelAlias,
          call.outcome.reply)) ∧
      recordedOutcomes tr = orchestrator.recorded calls := by
  unfold invokeDecision at h
  dsimp only at h
  split at h
  · rename_i hempty
    obtain ⟨rfl, hcalls, houtcomes⟩ := run_record h
    rw [hempty, hcalls, houtcomes]
    exact ⟨[], Tried.exhausted, ⟨rfl, rfl, fun _ => rfl, fun hne => absurd rfl hne⟩,
      rfl, by simp [recorded]⟩
  · rename_i hne
    obtain ⟨st, tr₁, tr₂, rfl, h₁, h₂⟩ := (run_bind_ok_iff _ _ _ _).mp h
    obtain ⟨finalDecision, tr₃, tr₄, rfl, h₃, h₄⟩ := (run_bind_ok_iff _ _ _ _).mp h₂
    obtain ⟨rfl, hfinal⟩ := (run_ofExcept_iff _ _ _).mp h₃
    obtain ⟨rfl, hcalls', houtcomes'⟩ := run_record h₄
    obtain ⟨calls, htried, rfl, hcalls, houtcomes⟩ := run_attemptChain h₁
    obtain ⟨hresponse, halias⟩ := @foldl_succeeded decision _ _ htried {} rfl rfl
    refine ⟨calls, htried, ?_, by simp [hcalls, hcalls'], by simp [houtcomes, houtcomes']⟩
    refine ⟨?_, ?_, fun hempty => absurd hempty hne, fun _ => ?_⟩
    · rw [foldl_attempts]
      rfl
    · rw [hresponse, halias]
      cases succeededCall calls <;> rfl
    · rw [halias, foldl_extraReasonCodes] at hfinal
      exact hfinal.symm

/-! ## Ports that answer -/

def ProviderPort : Port → Prop
  | .invoke _ | .invokeStream _ => True
  | _ => False

/-- The port does not raise, but for a provider that raises a provider error. -/
def answers (port : Port) : Except PyException port.Answer → Prop
  | .ok _ => True
  | .error x => ProviderPort port ∧ ∃ message category, x = .providerError message category

def Answered (tr : List (Event Ports)) : Prop := ∀ ev ∈ tr, answers ev.call ev.reply

def answeredMonitor : Monitor Ports (List (Event Ports)) :=
  Monitor.history (fun _ _ => True) answers

/-- The program returned, with a value that satisfies `Q`. -/
def Returns {α : Type} (Q : α → Prop) (out : Except PyException α) (_ : List (Event Ports)) :
    Prop :=
  ∃ a, out = .ok a ∧ Q a

variable {past : List (Event Ports)}

theorem returns_bind {α β : Type} {p : Prog Ports α} {f : α → Prog Ports β} {Q : α → Prop}
    {R : Except PyException β → List (Event Ports) → Prop}
    (h : Spec answeredMonitor p (Returns Q) past)
    (hf : ∀ a past', Q a → Spec answeredMonitor (f a) R past') :
      Spec answeredMonitor (p >>= f) R past := by
  refine Spec.bind h (fun a past' ha => ?_) fun x past' hx => ?_
  · obtain ⟨a', ha', hQ⟩ := ha
    cases ha'
    exact hf a past' hQ
  · obtain ⟨a', ha', -⟩ := hx
    cases ha'

theorem returns_ask {port : Port} (h : ¬ ProviderPort port) :
    Spec answeredMonitor (ask port) (Returns fun _ => True) past := by
  refine Spec.perform trivial fun reply hreply => ?_
  cases reply with
  | ok a => exact ⟨a, rfl, trivial⟩
  | error x => exact absurd hreply.1 h

theorem returns_optional {configured : Bool} {call : Prog Ports Unit}
    (h : Spec answeredMonitor call (Returns fun _ => True) past) :
    Spec answeredMonitor (if configured then call else ret ()) (Returns fun _ => True) past := by
  split
  · exact h
  · exact ⟨(), rfl, trivial⟩

theorem returns_recordHealthOutcome (modelAlias : String) (status : InvocationAttemptStatus) :
    Spec answeredMonitor (orchestrator.recordHealthOutcome modelAlias status) (Returns fun _ =>
      True) past :=
  returns_optional (returns_ask id)

theorem returns_record (result : InferenceResult) :
    Spec answeredMonitor (orchestrator.record result) (Returns fun _ => True) past := by
  refine returns_bind (returns_optional (returns_ask id)) fun _ _ _ => ?_
  refine returns_bind (returns_optional (returns_ask id)) fun _ _ _ => ?_
  refine returns_bind (returns_optional (returns_ask id)) fun _ _ _ => ?_
  exact ⟨_, rfl, trivial⟩

theorem returns_attemptChain {effective : EffectiveRoutingRequirements} {eligible : List String}
    (chain : List String) (st : Attempts) (hchain : ∀ modelAlias ∈ chain, modelAlias ∈ eligible)
    (hst : ∀ modelAlias, st.succeededAlias = some modelAlias → modelAlias ∈ eligible) :
    Spec answeredMonitor (orchestrator.attemptChain request decision effective chain st)
      (Returns fun st' => ∀ modelAlias, st'.succeededAlias = some modelAlias →
        modelAlias ∈ eligible) past := by
  induction chain generalizing st past with
  | nil => exact ⟨st, rfl, hst⟩
  | cons modelAlias chain ih =>
      have hrest : ∀ modelAlias ∈ chain, modelAlias ∈ eligible :=
        fun a ha => hchain a (List.mem_cons_of_mem _ ha)
      refine returns_bind (returns_ask id) fun startedAt _ _ => ?_
      refine Spec.tryPerformBind trivial fun reply hreply => ?_
      split
      · refine returns_bind (returns_ask id) fun finishedAt _ _ => ?_
        refine returns_bind (returns_recordHealthOutcome _ _) fun _ _ _ => ?_
        split
        · exact ⟨_, rfl, hst⟩
        · exact ih _ hrest hst
      · rename_i x hx
        obtain ⟨-, message, category, rfl⟩ := hreply
        exact absurd rfl (hx message category)
      · refine returns_bind (returns_ask id) fun finishedAt _ _ => ?_
        refine returns_bind (returns_recordHealthOutcome _ _) fun _ _ _ => ?_
        refine ⟨_, rfl, fun succeeded hsucceeded => ?_⟩
        cases hsucceeded
        exact hchain _ List.mem_cons_self

theorem returns_invokeDecision
    (h : ∀ modelAlias ∈ buildCandidateChain decision policy.fallbackPolicy,
    modelAlias ∈ eligibleAliases decision) :
    Spec answeredMonitor (orchestrator.invokeDecision request decision policy) (Returns fun _ =>
      True) past := by
  unfold invokeDecision
  dsimp only
  split
  · exact returns_record _
  · refine returns_bind (returns_attemptChain _ {} h (by simp)) fun st _ hst => ?_
    refine Spec.ofExceptBind (fun _ _ => returns_record _) fun x hx => ?_
    cases hsucceeded : st.succeededAlias with
    | none =>
        rw [hsucceeded] at hx
        cases hx
    | some modelAlias =>
        obtain ⟨candidate, -, -, hok⟩ :=
          aggregateDecision_some (hst modelAlias hsucceeded) st.extraReasonCodes
        rw [hsucceeded, hok] at hx
        cases hx

/-! ## The use case -/

/-- The events before a route is evaluated: a new reservation, where the request makes one. -/
def Started (orchestrator : InvocationOrchestrator) (request : InferenceRequest)
    (tr : List (Event Ports)) : Prop :=
  match request.idempotencyKey with
  | none => tr = []
  | some idempotencyKey =>
    if orchestrator.hasIdempotencyStore then
      ∃ requestHash reservation, orchestrator.computeRequestHash request = .ok requestHash ∧
        reservation.outcome = .new ∧
        tr = [⟨.reserve request.applicationId idempotencyKey requestHash, .ok reservation⟩]
    else tr = []

/-- The fallback semantics of a decision: the calls `calls`, read off the events `tr`, and the
result. -/
structure FallbackSemantics (orchestrator : InvocationOrchestrator) (request : InferenceRequest)
    (decision : RoutingDecision) (policy : RoutingPolicy) (tr : List (Event Ports))
    (calls : List ProviderCall) (result : InferenceResult) : Prop where
  chain : buildCandidateChain decision policy.fallbackPolicy =
    (fallbackOrder decision policy.fallbackPolicy).take policy.fallbackPolicy.maximumAttempts
  nodup : (fallbackOrder decision policy.fallbackPolicy).Nodup
  shortest : ShortestPrefix (buildCandidateChain decision policy.fallbackPolicy) calls
  requests : providerCalls tr = calls.map fun call =>
    (providerRequest request (resolveEffectiveRequirements request.requirements policy)
      call.modelAlias,
      call.outcome.reply)
  attempts : result.invocationAttempts = calls.map (·.attempt)
  outcomes : orchestrator.hasModelHealthRepository →
    recordedOutcomes tr = result.invocationAttempts.map fun attempt =>
      (attempt.modelAlias, attempt.status)
  response : result.response = calls.getLast?.bind (·.response)

theorem FallbackSemantics.append {tr tr' : List (Event Ports)} {calls : List ProviderCall}
    {result : InferenceResult}
    (h : FallbackSemantics orchestrator request decision policy tr calls result)
    (hcalls : providerCalls tr' = []) (houtcomes : recordedOutcomes tr' = []) :
    FallbackSemantics orchestrator request decision policy (tr ++ tr') calls result := by
  refine { h with requests := ?_, outcomes := fun hrepository => ?_ }
  · rw [providerCalls_append, hcalls, List.append_nil]
    exact h.requests
  · rw [recordedOutcomes_append, houtcomes, List.append_nil]
    exact h.outcomes hrepository

theorem succeededCall_response (calls : List ProviderCall) :
    (succeededCall calls).map (·.2) = calls.getLast?.bind (·.response) := by
  unfold succeededCall
  cases calls.getLast? with
  | none => rfl
  | some call => cases h : call.response <;> simp [h]

theorem fallback_of_run {result : InferenceResult}
    (h : Run (orchestrator.invokeDecision request decision policy) tr (.ok result)) :
    ∃ calls, FallbackSemantics orchestrator request decision policy tr calls result := by
  obtain ⟨calls, htried, hconcluded, hcalls, houtcomes⟩ := run_invokeDecision h
  refine ⟨calls, ?_⟩
  exact {
    chain := buildCandidateChain_eq decision policy.fallbackPolicy
    nodup := nodup_eraseDups _
    shortest := htried.shortestPrefix
    requests := hcalls
    attempts := hconcluded.attempts
    outcomes := fun hrepository => by
      rw [houtcomes, recorded, if_pos hrepository, hconcluded.attempts, List.map_map]
      rfl
    response := hconcluded.response.trans (succeededCall_response calls) }

/-- A run of `invoke` that starts is one of `_invoke_uncached`, or of the rest of a reservation. -/
theorem run_invoke_started {pre : List (Event Ports)} {out : Except PyException InferenceResult}
    (hstart : orchestrator.Started request pre)
    (h : Run (orchestrator.invoke request) (pre ++ tr) out) :
    Run (orchestrator.invokeUncached request) tr out ∨
      ∃ idempotencyKey requestHash,
        Run (orchestrator.invokeReserved request idempotencyKey requestHash) tr out := by
  unfold Started at hstart
  unfold invoke at h
  cases hkey : request.idempotencyKey with
  | none =>
      rw [hkey] at hstart h
      rw [hstart] at h
      exact Or.inl h
  | some idempotencyKey =>
      rw [hkey] at hstart h
      dsimp only at hstart h
      split at hstart
      · rename_i hstore
        rw [if_pos hstore] at h
        obtain ⟨requestHash, reservation, hhash, hnew, rfl⟩ := hstart
        unfold invokeWithIdempotency at h
        rw [hhash] at h
        have h' := (run_perform_bind_cons_iff _ _ _ _ _).mp h
        rw [hnew] at h'
        exact Or.inr ⟨_, _, h'⟩
      · rename_i hstore
        rw [if_neg hstore, hstart] at h
        exact Or.inl h

/-- A run of `_invoke_uncached` whose trace begins with the evaluation of `decision` and the second
answer `policy` goes on as `_invoke_uncached` does for them. -/
theorem run_uncached_decision {tr₀ tr₁ tail : List (Event Ports)}
    {out : Except PyException InferenceResult}
    (hevaluate : Run (orchestrator.routeEvaluationService.evaluate request) tr₀ (.ok decision))
    (h : Run (orchestrator.invokeUncached request) tr out)
    (happ : tr₀ ++ ⟨.resolve request.applicationId, .ok policy⟩ :: tr₁ = tr ++ tail) :
    ∃ tr', tr₁ = tr' ++ tail ∧
      Run (orchestrator.invokeDecision request decision policy) tr' out := by
  obtain ⟨tr', -, hrest, h'⟩ := run_bind_prefix hevaluate h happ
  have hresolve : Run (ask (.resolve request.applicationId))
      [⟨.resolve request.applicationId, .ok policy⟩]
      (.ok policy) := (run_perform_ok_iff _ _ _).mpr rfl
  obtain ⟨tr'', -, htr₁, h''⟩ := run_bind_prefix hresolve h' hrest
  exact ⟨tr'', htr₁, h''⟩

theorem invokeDecision_fallback {out : Except PyException InferenceResult}
    (h : Run (orchestrator.invokeDecision request decision policy) tr out) (hanswered : Answered tr)
    (heligible : ∀ modelAlias ∈ buildCandidateChain decision policy.fallbackPolicy,
      modelAlias ∈ eligibleAliases decision) :
    ∃ result calls, out = .ok result ∧
      FallbackSemantics orchestrator request decision policy tr calls result := by
  have hspec : Spec answeredMonitor (orchestrator.invokeDecision request decision policy)
      (Returns fun _ => True) [] :=
    returns_invokeDecision heligible
  obtain ⟨result, rfl, -⟩ := hspec.run h (kept_history hanswered)
  obtain ⟨calls, hcalls⟩ := fallback_of_run h
  exact ⟨result, calls, rfl, hcalls⟩

/-- The completion of a reservation neither calls the provider nor records an outcome. -/
theorem run_completeReservation {idempotencyKey requestHash : String} {result : InferenceResult}
    {out : Except PyException InferenceResult}
    (h : Run (completeReservation request idempotencyKey requestHash result) tr out)
    (hanswered : Answered tr) :
    out = .ok result ∧ providerCalls tr = [] ∧ recordedOutcomes tr = [] := by
  have hspec : Spec answeredMonitor (completeReservation request idempotencyKey requestHash result)
      (Returns fun returned => returned = result) [] :=
    returns_bind (returns_ask id) fun _ _ _ => returns_bind (returns_ask id) fun _ _ _ =>
      ⟨result, rfl, rfl⟩
  have honly : Only (fun port => (∃ applicationId, port = Port.resolve applicationId) ∨
      StorePort port)
      (completeReservation request idempotencyKey requestHash result) :=
    Only.bind (Only.perform (Or.inl ⟨_, rfl⟩)) fun _ =>
      Only.bind (Only.perform (Or.inr trivial)) fun _ => trivial
  obtain ⟨returned, rfl, rfl⟩ := hspec.run h (kept_history hanswered)
  refine ⟨rfl, providerCalls_eq_nil fun ev hev preq hcall => ?_,
    recordedOutcomes_eq_nil fun ev hev modelAlias status hcall => ?_⟩
  · have hport := honly.run h ev hev
    rw [hcall] at hport
    rcases hport with ⟨_, hport⟩ | hport <;> cases hport
  · have hport := honly.run h ev hev
    rw [hcall] at hport
    rcases hport with ⟨_, hport⟩ | hport <;> cases hport

/-- **The fallback semantics of `invoke`**: for every decision of an evaluation, every policy of the
second resolution and all outcomes of the provider's calls. -/
theorem invoke_fallback {pre tr₀ tr₁ : List (Event Ports)}
    {out : Except PyException InferenceResult}
    (hstart : orchestrator.Started request pre)
    (hevaluate : Run (orchestrator.routeEvaluationService.evaluate request) tr₀ (.ok decision))
    (hrun : Run (orchestrator.invoke request)
      (pre ++ (tr₀ ++ ⟨.resolve request.applicationId, .ok policy⟩ :: tr₁)) out)
    (hanswered : Answered tr₁) :
    ∃ result calls, out = .ok result ∧
      FallbackSemantics orchestrator request decision policy tr₁ calls result := by
  obtain ⟨evaluated, -, hevaluated⟩ := run_evaluate hevaluate
  have heligible : ∀ modelAlias ∈ buildCandidateChain decision policy.fallbackPolicy,
      modelAlias ∈ eligibleAliases decision := fun _ hmem => mem_buildCandidateChain hevaluated hmem
  rcases run_invoke_started hstart hrun with h | ⟨idempotencyKey, requestHash, h⟩
  · obtain ⟨tr', htr₁, h'⟩ := run_uncached_decision hevaluate h (List.append_nil _).symm
    rw [List.append_nil] at htr₁
    subst htr₁
    exact invokeDecision_fallback h' hanswered heligible
  · obtain ⟨o, tr₂, tail, happ, h₂, h₃⟩ := (run_attempt_bind_iff _ _ _ _).mp h
    obtain ⟨tr', rfl, h'⟩ := run_uncached_decision hevaluate h₂ happ
    have hanswered' : Answered tr' := fun ev hev => hanswered ev (List.mem_append_left _ hev)
    obtain ⟨result, calls, rfl, hfallback⟩ := invokeDecision_fallback h' hanswered' heligible
    obtain ⟨rfl, hcalls, houtcomes⟩ := run_completeReservation h₃ fun ev hev =>
      hanswered ev (List.mem_append_right _ hev)
    exact ⟨result, calls, rfl, hfallback.append hcalls houtcomes⟩

theorem answers_of_world {α : Type} {world : World} {p : Prog Ports α} {s : WorldState}
    (hpolicy : ∀ applicationId, ∃ policy, world.policy applicationId = .ok policy) :
    Answered (trace world.answer p s) := by
  intro ev hev
  obtain ⟨s', hreply⟩ := mem_trace hev
  obtain ⟨port, reply⟩ := ev
  dsimp only at hreply
  subst hreply
  cases port with
  | resolve applicationId =>
      obtain ⟨policy, hp⟩ := hpolicy applicationId
      simp only [World.answer, hp, answers]
  | publishMetrics result => simp only [World.answer, EmfMetricsPublisher.publish_ok, answers]
  | invoke preq =>
      cases h : world.outcome preq.modelAlias with
      | success response first chunks => simp only [World.answer, h, ModelOutcome.response, answers]
      | failure message category =>
          simp only [World.answer, h, ModelOutcome.response, answers]
          exact ⟨trivial, message, category, rfl⟩
  | invokeStream preq =>
      cases h : world.outcome preq.modelAlias with
      | success response first chunks => simp only [World.answer, h, ModelOutcome.stream, answers]
      | failure message category =>
          simp only [World.answer, h, ModelOutcome.stream, answers]
          exact ⟨trivial, message, category, rfl⟩
  | _ => trivial

theorem scenario_fallback : ∃ decision tr calls result,
    FallbackSemantics Scenario.orchestrator Scenario.request decision Scenario.policy tr
      calls result ∧
      result.invocationAttempts.map (fun attempt => (attempt.modelAlias, attempt.status)) =
        [("primary", .throttled), ("fallback", .succeeded)] := by
  have hdecided : ((exec Scenario.throttled.answer
      (Scenario.orchestrator.routeEvaluationService.evaluate Scenario.request)
        {}).1.toOption.isSome) = true := by
    decide +kernel
  have hresult : ((exec Scenario.throttled.answer (Scenario.orchestrator.invoke Scenario.request)
      {}).1.toOption.map
      fun result => result.invocationAttempts.map fun attempt =>
        (attempt.modelAlias, attempt.status)) =
        some [("primary", .throttled), ("fallback", .succeeded)] := by decide +kernel
  have hrun := run_exec Scenario.throttled.answer (Scenario.orchestrator.invoke Scenario.request) {}
  have hevaluate := run_exec Scenario.throttled.answer
    (Scenario.orchestrator.routeEvaluationService.evaluate Scenario.request) {}
  have hanswered : Answered
      (trace Scenario.throttled.answer (Scenario.orchestrator.invoke Scenario.request) {}) :=
    answers_of_world fun _ => ⟨Scenario.policy, rfl⟩
  cases hexec : exec Scenario.throttled.answer
      (Scenario.orchestrator.routeEvaluationService.evaluate Scenario.request) {} with
  | mk o s =>
      rw [hexec] at hdecided hevaluate
      cases o with
      | error x => cases hdecided
      | ok decision =>
          have htrace : trace Scenario.throttled.answer
              (Scenario.orchestrator.invoke Scenario.request) {} =
              [] ++ (trace Scenario.throttled.answer
                (Scenario.orchestrator.routeEvaluationService.evaluate Scenario.request) {} ++
              ⟨.resolve Scenario.request.applicationId, .ok Scenario.policy⟩ ::
                trace Scenario.throttled.answer
                (Scenario.orchestrator.invokeDecision Scenario.request decision Scenario.policy)
                  s) :=
            trace_bind hexec
          rw [htrace] at hrun hanswered
          have hstart : Scenario.orchestrator.Started Scenario.request [] := Eq.refl []
          obtain ⟨result, calls, hout, hfallback⟩ :=
            invoke_fallback hstart hevaluate hrun fun ev hev =>
              hanswered ev (List.mem_append_right _
                (List.mem_append_right _ (List.mem_cons_of_mem _ hev)))
          rw [hout] at hresult
          exact ⟨decision, _, calls, result, hfallback, Option.some.inj hresult⟩

end InvocationOrchestrator

end ModelRouter
