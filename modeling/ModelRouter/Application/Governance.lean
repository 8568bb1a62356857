import ModelRouter.Application.Obligations
import ModelRouter.Application.World

/-!
# Governance of every invocation

`Governed` is what a policy promises of a request handed to the model provider. The fallback chain
only holds eligible candidates, an eligible candidate has passed every filter, and the limits of the
provider request are the effective ones; `invocation_governed` : so both use cases keep the promise
at every call of the provider, on every partial run.
-/

namespace ModelRouter
open Effects Prog Arith RouteEvaluationService

/-- The estimated usage of a request with the default heuristic. -/
def estimatedUsage (request : InferenceRequest) (preq : ProviderRequest) : Usage :=
  DefaultTokenEstimator.estimate request.messages preq.maxOutputTokens

/-- The provider request `preq` names the model, and the model may serve the request under the
policy. -/
structure Governed (service : RouteEvaluationService) (request : InferenceRequest)
    (policy : RoutingPolicy)
    (tr : List (Event Ports)) (preq : ProviderRequest) (model : ModelDefinition) : Prop where
  catalogued : model ∈ service.modelCatalogue.models
  named : preq.modelAlias = model.modelAlias
  allowed : model.modelAlias ∈ policy.allowedModelAliases
  capability_permitted : request.requirements.capability ∈ policy.allowedCapabilities
  capability_tagged : request.requirements.capability ∈ model.capabilities.capabilityTags
  toolUse : request.requirements.requiresToolUse → model.capabilities.supportsToolUse
  structuredOutput : request.requirements.requiresStructuredOutput →
    model.capabilities.supportsStructuredOutput
  tier : model.capabilities.qualityTier = effectiveQualityTier request.requirements policy
  tier_allowed : model.capabilities.qualityTier ∈ policy.allowedQualityTiers
  output_policy : preq.maxOutputTokens ≤ policy.maximumOutputTokens
  output_model : preq.maxOutputTokens ≤ model.capabilities.maxOutputTokens
  output_client : policy.allowClientOverrides.maximumOutputTokens →
    ∀ tokens, request.requirements.maximumOutputTokens = some tokens → preq.maxOutputTokens ≤ tokens
  input_model : (estimatedUsage request preq).inputTokens ≤ model.capabilities.maxInputTokens
  cost : ∃ cost, DefaultCostEstimator.estimate (estimatedUsage request preq) model.pricing =
    .ok cost ∧
    cost.amountUsd ≤ effectiveCostLimit request.requirements policy ∧
    cost.amountUsd ≤ policy.maximumEstimatedCostUsd ∧
    (policy.allowClientOverrides.maximumEstimatedCostUsd →
      ∀ limit, request.requirements.maximumEstimatedCostUsd = some limit → cost.amountUsd ≤ limit)
  healthy : ∃ status, service.Reported tr model.modelAlias status ∧ status ≠ .unavailable

theorem Governed.mono {service : RouteEvaluationService} {request : InferenceRequest}
    {policy : RoutingPolicy}
    {tr tr' : List (Event Ports)} {preq : ProviderRequest} {model : ModelDefinition}
    (h : Governed service request policy tr preq model) (htr : ∀ ev ∈ tr, ev ∈ tr') :
    Governed service request policy tr' preq model := by
  obtain ⟨status, hreported, hne⟩ := h.healthy
  exact { h with healthy := ⟨status, hreported.mono htr, hne⟩ }

namespace InvocationOrchestrator

/-! ## The observer -/

/-- What is owed at a call: a request handed to the provider is governed. -/
def governance (service : RouteEvaluationService) (request : InferenceRequest)
    (policy : RoutingPolicy) (tr : List (Event Ports)) : Port → Prop
  | .invoke preq | .invokeStream preq => ∃ model, Governed service request policy tr preq model
  | _ => True

/-- The policy repository keeps to one policy. -/
def resolvesTo (policy : RoutingPolicy) : (port : Port) → Except PyException port.Answer → Prop
  | .resolve _, reply => ∀ p, reply = .ok p → p = policy
  | _, _ => True

/-- What governance asks of an attempt. -/
def governanceObligation (service : RouteEvaluationService) (request : InferenceRequest)
    (policy : RoutingPolicy) :
    Obligation where
  owes := governance service request policy
  keeps := resolvesTo policy
  elsewhere tr port h := by cases port <;> first | trivial | exact absurd trivial h
  mono {tr tr' port} h htr := by
    cases port <;> first | trivial | exact h.imp fun _ hmodel => hmodel.mono htr

variable {orchestrator : InvocationOrchestrator} {request : InferenceRequest}
  {policy : RoutingPolicy}
  {decision : RoutingDecision} {past tr : List (Event Ports)} {service : RouteEvaluationService}

theorem governed_of_eligible (htokens : service.tokenEstimator = DefaultTokenEstimator)
    (hcosts : service.costEstimator = DefaultCostEstimator)
    (h : service.Evaluated request policy tr decision)
    {modelAlias : String} (hmem : modelAlias ∈ eligibleAliases decision) :
    ∃ model, Governed service request policy tr
      (providerRequest request (resolveEffectiveRequirements request.requirements policy)
        modelAlias) model := by
  cases h with
  | unavailable => cases hmem
  | considered decisionId createdAt candidates selection hallowed hcandidates hselection =>
      obtain ⟨candidate, hcandidate, rfl⟩ := List.mem_map.mp hmem
      obtain ⟨hcandidate, heligible⟩ := List.mem_filter.mp hcandidate
      obtain ⟨model, hmodel, status, hreported, hevaluated⟩ :=
        exists_of_forall₂_mem hcandidates hcandidate
      obtain ⟨hmodel, htag⟩ := ModelCatalogue.mem_findByCapability.mp hmodel
      obtain ⟨halias, -, husage, hcost, hel, -⟩ := evaluateCandidate_ok hevaluated
      have hpasses := (candidateEligible_iff _ _).mp (hel ▸ heligible)
      rw [htokens] at husage
      rw [hcosts, husage] at hcost
      rw [husage] at hpasses
      refine ⟨model, ?_⟩
      exact {
        catalogued := hmodel
        named := halias
        allowed := hpasses.allowed
        capability_permitted := hallowed
        capability_tagged := hpasses.capability
        toolUse := hpasses.toolUse
        structuredOutput := hpasses.structuredOutput
        tier := hpasses.tier
        tier_allowed := hpasses.tier ▸ effectiveQualityTier_allowed request.requirements policy
        output_policy := effectiveTokenLimit_le request.requirements policy
        output_model := hpasses.outputTokens
        output_client := fun hoverride tokens htok =>
          effectiveTokenLimit_le_requested request.requirements policy hoverride htok
        input_model := hpasses.inputTokens
        cost := ⟨candidate.estimatedCost, hcost, hpasses.cost,
          le_trans hpasses.cost (effectiveCostLimit_le request.requirements policy),
          fun hoverride limit hlimit =>
            le_trans hpasses.cost (effectiveCostLimit_le_requested request.requirements policy
              hoverride hlimit)⟩
        healthy := ⟨status, hreported, hpasses.health⟩ }

section UseCases

variable (htokens : orchestrator.routeEvaluationService.tokenEstimator = DefaultTokenEstimator)
  (hcosts : orchestrator.routeEvaluationService.costEstimator = DefaultCostEstimator)
include htokens hcosts

theorem governance_admits :
    (governanceObligation orchestrator.routeEvaluationService request policy).Admits
    orchestrator.routeEvaluationService request := by
  intro tr decision p hrun hkept hp modelAlias hmem
  obtain ⟨evaluated, hresolved, hevaluated⟩ := run_evaluate hrun
  have hevaluatedPolicy : evaluated = policy := hkept _ hresolved evaluated rfl
  have hsame : p = policy := hp p rfl
  subst hsame hevaluatedPolicy
  have hgoverned := governed_of_eligible htokens hcosts hevaluated
      (mem_buildCandidateChain hevaluated hmem)
  exact ⟨hgoverned, hgoverned, fun _ => trivial⟩

/-- **Every request handed to the model provider is governed**, on every partial run of either use
case whose policy resolves to one value; the health status is one reported before the call. -/
theorem invocation_governed {before after : List (Event Ports)} {port : Port}
    {reply : Except PyException port.Answer} {preq : ProviderRequest}
    (hrun : Trace (orchestrator.invoke request) (before ++ ⟨port, reply⟩ :: after) ∨
      Trace (orchestrator.invokeStream request) (before ++ ⟨port, reply⟩ :: after))
    (hpolicy : ∀ applicationId p,
      (⟨.resolve applicationId, .ok p⟩ : Event Ports) ∈ before ++ ⟨port, reply⟩ :: after →
      p = policy)
    (hcall : port = .invoke preq ∨ port = .invokeStream preq) :
    ∃ model, Governed orchestrator.routeEvaluationService request policy before preq model := by
  have hadmits : (governanceObligation orchestrator.routeEvaluationService request policy).Admits
      orchestrator.routeEvaluationService request := governance_admits htokens hcosts
  have hkept : (governanceObligation orchestrator.routeEvaluationService request
      policy).monitor.Kept []
      (before ++ ⟨port, reply⟩ :: after) := by
    refine kept_history fun ev hev => ?_
    obtain ⟨call, reply'⟩ := ev
    cases call with
    | resolve applicationId =>
        rintro p rfl
        exact hpolicy applicationId p hev
    | _ => trivial
  have howed : governance orchestrator.routeEvaluationService request policy before port := by
    rcases hrun with ⟨q, hsteps⟩ | ⟨q, hsteps⟩
    · exact paid_history ((spec_invoke hadmits).steps hsteps hkept).1
    · exact paid_history ((spec_invokeStream hadmits).steps hsteps hkept).1
  rcases hcall with rfl | rfl
  · exact howed
  · exact howed

end UseCases

def asksFallback (event : Event Ports) : Bool :=
  match event.call with
  | .invoke preq => preq.modelAlias = "fallback"
  | _ => false

/-- The fallback model of the scenario serves under the policy, once the primary one is
throttled. -/
theorem scenario_governed : ∃ before preq model, preq.modelAlias = "fallback" ∧
    Governed Scenario.orchestrator.routeEvaluationService Scenario.request Scenario.policy before
      preq model := by
  have hany : (trace Scenario.throttled.answer (Scenario.orchestrator.invoke Scenario.request)
      {}).any asksFallback = true := by decide +kernel
  obtain ⟨⟨port, reply⟩, hmem, hport⟩ := List.any_eq_true.mp hany
  obtain ⟨before, after, hsplit⟩ := List.append_of_mem hmem
  cases port with
  | invoke preq =>
      have hrun := (run_exec Scenario.throttled.answer
          (Scenario.orchestrator.invoke Scenario.request) {}).trace
      have hpolicy : ∀ applicationId p, (⟨.resolve applicationId, .ok p⟩ : Event Ports) ∈
          trace Scenario.throttled.answer (Scenario.orchestrator.invoke Scenario.request) {} →
          p = Scenario.policy := by
        intro applicationId p hp
        exact (Except.ok.inj (World.resolve_mem_trace hp)).symm
      rw [hsplit] at hrun hpolicy
      obtain ⟨model, hmodel⟩ := invocation_governed rfl rfl (Or.inl hrun) hpolicy (Or.inl rfl)
      exact ⟨before, preq, model, of_decide_eq_true hport, hmodel⟩
  | _ => cases hport

end InvocationOrchestrator

end ModelRouter
