import ModelRouter.Application.Execution
import ModelRouter.Lib.DecimalRounding
import ModelRouter.Lib.Outcome

/-!
# Eligibility is monotone in the request

`Demanding` : a request that asks for as much as another one, with at least as many characters and
output tokens, under at most its cost limit. Over prices that are not negative, the estimates of the
lesser request are at most those of the other (`tokenEstimate_mono`, `costEstimate_mono`), so its
candidates are eligible where those of the other one are (`eligibility_monotone`).
-/

namespace ModelRouter
open Arith Effects Prog RouteEvaluationService

/-! ## The estimates -/

/-- The prices are not negative. -/
structure ModelPricing.Nonneg (pricing : ModelPricing) : Prop where
  input : pricing.inputPricePer1kTokens.Nonneg
  output : pricing.outputPricePer1kTokens.Nonneg

/-- At most as many tokens in and out. -/
structure Usage.Le (usage usage' : Usage) : Prop where
  inputTokens : usage.inputTokens ≤ usage'.inputTokens
  outputTokens : usage.outputTokens ≤ usage'.outputTokens

variable {messages messages' : List Message} {usage usage' : Usage} {pricing : ModelPricing}
  {cost' : EstimatedCost}

theorem tokenEstimate_mono {maximumOutputTokens maximumOutputTokens' : Nat}
    (hchars : totalChars messages ≤ totalChars messages')
    (htokens : maximumOutputTokens ≤ maximumOutputTokens') :
    (DefaultTokenEstimator.estimate messages maximumOutputTokens).Le
      (DefaultTokenEstimator.estimate messages' maximumOutputTokens') where
  inputTokens := by
    show max 1 ((totalChars messages + 3) / 4) ≤ max 1 ((totalChars messages' + 3) / 4)
    omega
  outputTokens := htokens

theorem ofNat_nonneg (n : Nat) : (Decimal.ofNat n).Nonneg := fun h => by cases h

theorem ofNat_mono {n n' : Nat} (h : n ≤ n') : Decimal.ofNat n ≤ Decimal.ofNat n' := by
  rw [Decimal.le_iff, Decimal.toRat_of_nonneg (ofNat_nonneg n),
    Decimal.toRat_of_nonneg (ofNat_nonneg n')]
  simpa [Decimal.ofNat] using h

/-- Some tokens, in thousands. -/
def thousands (tokens : Nat) : Decimal := Decimal.div decimalPrecision (.ofNat tokens) (.ofNat 1000)

/-- What some tokens cost, before the total is rounded to six decimals. -/
def tokenCost (tokens : Nat) (price : Money) : Decimal :=
  Decimal.mul decimalPrecision (thousands tokens) price

/-- The total before it is rounded to six decimals. -/
def unroundedCost (usage : Usage) (pricing : ModelPricing) : Decimal :=
  Decimal.add decimalPrecision (tokenCost usage.inputTokens pricing.inputPricePer1kTokens)
    (tokenCost usage.outputTokens pricing.outputPricePer1kTokens)

/-- No result on the way to the total overflows. -/
structure CostInRange (usage : Usage) (pricing : ModelPricing) : Prop where
  inputTokens : (thousands usage.inputTokens).overflows decimalEmax = false
  input : (tokenCost usage.inputTokens pricing.inputPricePer1kTokens).overflows decimalEmax = false
  outputTokens : (thousands usage.outputTokens).overflows decimalEmax = false
  output : (tokenCost usage.outputTokens pricing.outputPricePer1kTokens).overflows decimalEmax =
    false
  total : (unroundedCost usage pricing).overflows decimalEmax = false

theorem thousands_nonneg (tokens : Nat) : (thousands tokens).Nonneg :=
  (ofNat_nonneg tokens).div (ofNat_nonneg 1000) (by decide)

theorem thousands_mono {tokens tokens' : Nat} (h : tokens ≤ tokens') :
    thousands tokens ≤ thousands tokens' :=
  Decimal.div_mono (by decide) (ofNat_nonneg tokens) (ofNat_nonneg 1000) (by decide) (ofNat_mono h)

theorem tokenCost_nonneg {tokens : Nat} {price : Money} (hprice : price.Nonneg) :
    (tokenCost tokens price).Nonneg :=
  (thousands_nonneg tokens).mul hprice

theorem tokenCost_mono {tokens tokens' : Nat} {price : Money} (hprice : price.Nonneg)
    (h : tokens ≤ tokens') :
    tokenCost tokens price ≤ tokenCost tokens' price :=
  Decimal.mul_mono (by decide) (thousands_nonneg tokens) hprice (thousands_mono h) le_rfl

theorem unroundedCost_nonneg (hpricing : pricing.Nonneg) : (unroundedCost usage pricing).Nonneg :=
  (tokenCost_nonneg hpricing.input).add (tokenCost_nonneg hpricing.output)

theorem unroundedCost_mono (hpricing : pricing.Nonneg) (h : usage.Le usage') :
    unroundedCost usage pricing ≤ unroundedCost usage' pricing :=
  Decimal.add_mono (by decide) (tokenCost_nonneg hpricing.input) (tokenCost_nonneg hpricing.output)
    (tokenCost_mono hpricing.input h.inputTokens) (tokenCost_mono hpricing.output h.outputTokens)

theorem CostInRange.mono (hpricing : pricing.Nonneg) (husage : usage.Le usage')
    (h : CostInRange usage' pricing) :
    CostInRange usage pricing where
  inputTokens := Decimal.overflows_mono (thousands_nonneg _)
    (thousands_mono husage.inputTokens) h.inputTokens
  input := Decimal.overflows_mono (tokenCost_nonneg hpricing.input)
    (tokenCost_mono hpricing.input husage.inputTokens) h.input
  outputTokens := Decimal.overflows_mono (thousands_nonneg _)
    (thousands_mono husage.outputTokens) h.outputTokens
  output :=
    Decimal.overflows_mono (tokenCost_nonneg hpricing.output)
      (tokenCost_mono hpricing.output husage.outputTokens) h.output
  total := Decimal.overflows_mono (unroundedCost_nonneg hpricing)
    (unroundedCost_mono hpricing husage) h.total

theorem inContext_ok_iff {d d' : Decimal} : inContext d = .ok d' ↔ d.overflows decimalEmax = false ∧
    d = d' := by
  unfold inContext
  split
  · rename_i hover
    simp [hover]
  · rename_i hrange
    simp [hrange]

theorem costEstimate_ok_iff {cost : EstimatedCost} :
    DefaultCostEstimator.estimate usage pricing = .ok cost ↔
    CostInRange usage pricing ∧
    ∃ total, (unroundedCost usage pricing).quantize decimalPrecision (-6) = some total ∧
      cost = { amountUsd := total } := by
  have hpriced : ∀ tokens price d, pricedTokens tokens price = .ok d ↔
      (thousands tokens).overflows decimalEmax = false ∧
      (tokenCost tokens price).overflows decimalEmax = false ∧
        tokenCost tokens price = d := by
    intro tokens price d
    rw [pricedTokens, Outcome.bind_ok_iff]
    simp only [inContext_ok_iff, and_assoc, exists_and_left, exists_eq_left']
    exact Iff.rfl
  unfold DefaultCostEstimator
  dsimp only
  simp only [Outcome.bind_ok_iff, hpriced, inContext_ok_iff, and_assoc, exists_and_left,
    exists_eq_left']
  constructor
  · rintro ⟨hinputTokens, hinput, houtputTokens, houtput, hsum, hrounded⟩
    refine ⟨⟨hinputTokens, hinput, houtputTokens, houtput, hsum⟩, ?_⟩
    split at hrounded
    · rename_i total htotal
      exact ⟨total, htotal, (Except.ok.inj hrounded).symm⟩
    · cases hrounded
  · rintro ⟨h, total, htotal, rfl⟩
    refine ⟨h.inputTokens, h.input, h.outputTokens, h.output, h.total, ?_⟩
    split
    · rename_i total' htotal'
      obtain rfl := Option.some.inj (htotal'.symm.trans htotal)
      rfl
    · rename_i hnone
      cases hnone.symm.trans htotal

/-- **The cost is monotone in the usage**, and where the cost of the greater usage is within the
precision, so is that of the lesser one. -/
theorem costEstimate_mono (hpricing : pricing.Nonneg) (husage : usage.Le usage')
    (h : DefaultCostEstimator.estimate usage' pricing = .ok cost') :
    ∃ cost, DefaultCostEstimator.estimate usage pricing = .ok cost ∧
      cost.amountUsd ≤ cost'.amountUsd := by
  obtain ⟨hrange, total', htotal', rfl⟩ := costEstimate_ok_iff.mp h
  obtain ⟨total, htotal, hle⟩ :=
    Decimal.quantize_mono (unroundedCost_nonneg hpricing)
      (unroundedCost_mono hpricing husage) htotal'
  exact ⟨_, costEstimate_ok_iff.mpr ⟨hrange.mono hpricing husage, total, htotal, rfl⟩, hle⟩

/-! ## The candidates -/

/-- A candidate of the lesser request beside that of the other one. -/
structure RouteCandidate.Relaxes (candidate candidate' : RouteCandidate) : Prop where
  modelAlias : candidate.modelAlias = candidate'.modelAlias
  eligible : candidate'.eligible = true → candidate.eligible = true
  cost : candidate.estimatedCost.amountUsd ≤ candidate'.estimatedCost.amountUsd

/-- `request'` asks for as much as `request`, by an application with the policy. -/
structure Demanding (policy : RoutingPolicy) (request request' : InferenceRequest) : Prop where
  applicationId : request'.applicationId = request.applicationId
  capability : request'.requirements.capability = request.requirements.capability
  qualityTier : request'.requirements.qualityTier = request.requirements.qualityTier
  requiresToolUse : request'.requirements.requiresToolUse = request.requirements.requiresToolUse
  requiresStructuredOutput :
    request'.requirements.requiresStructuredOutput = request.requirements.requiresStructuredOutput
  chars : totalChars request.messages ≤ totalChars request'.messages
  outputTokens : effectiveTokenLimit request.requirements policy ≤
    effectiveTokenLimit request'.requirements policy
  costLimit : effectiveCostLimit request'.requirements policy ≤
    effectiveCostLimit request.requirements policy

section Requests
variable {policy : RoutingPolicy} {request request' : InferenceRequest} {model : ModelDefinition}
  {healthStatus : ModelHealthStatus} {candidate' : RouteCandidate}
  {service : RouteEvaluationService}

theorem effectiveQualityTier_congr {requested requested' : RoutingRequirements}
    (h : requested'.qualityTier = requested.qualityTier) :
    effectiveQualityTier requested' policy = effectiveQualityTier requested policy := by
  unfold effectiveQualityTier
  rw [h]

theorem Passes.relax {cost cost' : EstimatedCost} (h : Demanding policy request request')
    (husage : usage.Le usage') (hcost : cost.amountUsd ≤ cost'.amountUsd)
    (hpasses : Passes model (resolveEffectiveRequirements request'.requirements policy) policy
      usage' cost' healthStatus) :
    Passes model (resolveEffectiveRequirements request.requirements policy) policy usage cost
      healthStatus where
  health := hpasses.health
  capability := by
    have hcapability := hpasses.capability
    rw [show (resolveEffectiveRequirements request'.requirements policy).capability =
      _ from h.capability] at hcapability
    exact hcapability
  toolUse hrequired := hpasses.toolUse (h.requiresToolUse.trans hrequired)
  structuredOutput hrequired :=
    hpasses.structuredOutput (h.requiresStructuredOutput.trans hrequired)
  allowed := hpasses.allowed
  tier := hpasses.tier.trans (effectiveQualityTier_congr h.qualityTier)
  inputTokens := husage.inputTokens.trans hpasses.inputTokens
  outputTokens := husage.outputTokens.trans hpasses.outputTokens
  cost := hcost.trans (hpasses.cost.trans h.costLimit)

theorem evaluateCandidate_of_cost {requirements : EffectiveRoutingRequirements}
    {tokenEstimator : TokenEstimator}
    {costEstimator : CostEstimator} {cost : EstimatedCost} (h : costEstimator.estimate
      (tokenEstimator.estimate messages requirements.maximumOutputTokens) model.pricing =
        .ok cost) :
    ∃ candidate, evaluateCandidate model requirements policy tokenEstimator costEstimator messages
      healthStatus =
      .ok candidate ∧ candidate.estimatedCost = cost := by
  unfold evaluateCandidate
  dsimp only
  rw [h]
  exact ⟨_, rfl, rfl⟩

variable (htokens : service.tokenEstimator = DefaultTokenEstimator)
  (hcosts : service.costEstimator = DefaultCostEstimator)
include htokens hcosts

theorem evaluateModel_mono (h : Demanding policy request request') (hpricing : model.pricing.Nonneg)
    (hcandidate' : service.evaluateModel
      (resolveEffectiveRequirements request'.requirements policy) policy
      request'.messages model healthStatus = .ok candidate') :
    ∃ candidate, service.evaluateModel
      (resolveEffectiveRequirements request.requirements policy) policy
      request.messages model healthStatus = .ok candidate ∧ candidate.Relaxes candidate' := by
  unfold evaluateModel at hcandidate' ⊢
  rw [htokens, hcosts] at hcandidate' ⊢
  have husage := tokenEstimate_mono h.chars h.outputTokens
  obtain ⟨halias', -, husage', hcost', heligible', -⟩ := evaluateCandidate_ok hcandidate'
  rw [husage'] at hcost' heligible'
  obtain ⟨cost, hcost, hle⟩ := costEstimate_mono hpricing husage hcost'
  obtain ⟨candidate, hcandidate, rfl⟩ :=
    @evaluateCandidate_of_cost request.messages policy model healthStatus
    (resolveEffectiveRequirements request.requirements policy) DefaultTokenEstimator
      DefaultCostEstimator cost hcost
  obtain ⟨halias, -, husage₀, -, heligible₀, -⟩ := evaluateCandidate_ok hcandidate
  refine ⟨candidate, hcandidate, halias.trans halias'.symm, fun heligible => ?_, hle⟩
  rw [heligible', candidateEligible_iff] at heligible
  rw [heligible₀, husage₀, candidateEligible_iff]
  exact heligible.relax h husage hle

theorem mapM_relaxes (h : Demanding policy request request') (health : String → ModelHealthStatus)
    {models : List ModelDefinition} (hprices : ∀ model ∈ models, model.pricing.Nonneg)
    {candidates' : List RouteCandidate}
    (hcandidates' : models.mapM (fun model => service.evaluateModel
      (resolveEffectiveRequirements request'.requirements policy) policy request'.messages model
        (health model.modelAlias)) = .ok candidates') :
    ∃ candidates, models.mapM (fun model => service.evaluateModel
      (resolveEffectiveRequirements request.requirements policy) policy request.messages model
        (health model.modelAlias)) = .ok candidates ∧
        List.Forall₂ RouteCandidate.Relaxes candidates candidates' := by
  induction models generalizing candidates' with
  | nil =>
      obtain rfl := Except.ok.inj hcandidates'
      exact ⟨[], rfl, .nil⟩
  | cons model models ih =>
      rw [List.mapM_cons] at hcandidates'
      cases hfirst' : service.evaluateModel
        (resolveEffectiveRequirements request'.requirements policy) policy
          request'.messages model (health model.modelAlias) with
      | error x =>
          rw [hfirst'] at hcandidates'
          cases hcandidates'
      | ok candidate' =>
          cases hrest' : models.mapM (fun model => service.evaluateModel
              (resolveEffectiveRequirements request'.requirements policy) policy
                request'.messages model
                (health model.modelAlias)) with
          | error x =>
              rw [hfirst', hrest'] at hcandidates'
              cases hcandidates'
          | ok rest' =>
              rw [hfirst', hrest'] at hcandidates'
              obtain rfl := Except.ok.inj hcandidates'
              obtain ⟨candidate, hfirst, hrelaxes⟩ :=
                evaluateModel_mono htokens hcosts h (hprices model List.mem_cons_self) hfirst'
              obtain ⟨rest, hrest, hall⟩ :=
                ih (fun model hmem => hprices model (List.mem_cons_of_mem _ hmem)) hrest'
              refine ⟨candidate :: rest, ?_, .cons hrelaxes hall⟩
              rw [List.mapM_cons, hfirst, hrest]
              rfl

theorem decisionIn_mono (h : Demanding policy request request')
    (health : String → ModelHealthStatus)
    (hprices : ∀ model ∈ service.modelCatalogue.models, model.pricing.Nonneg) {decisionId : String}
    {createdAt : Nat} {decision' : RoutingDecision}
    (hdecision' : service.decisionIn request' policy health decisionId createdAt = .ok decision') :
    ∃ decision, service.decisionIn request policy health decisionId createdAt = .ok decision ∧
      List.Forall₂ RouteCandidate.Relaxes decision.consideredCandidates
        decision'.consideredCandidates := by
  have hmodels : service.requestedModels request' = service.requestedModels request := by
    unfold requestedModels
    rw [h.capability]
  have hmem : ∀ model ∈ service.requestedModels request, model.pricing.Nonneg :=
    fun model hmodel => hprices model (service.modelCatalogue.mem_findByCapability.mp hmodel).1
  unfold decisionIn at hdecision' ⊢
  rw [h.capability, hmodels] at hdecision'
  split
  · rename_i hunavailable
    rw [if_pos hunavailable] at hdecision'
    obtain rfl := Except.ok.inj hdecision'
    exact ⟨_, rfl, .nil⟩
  · rename_i havailable
    rw [if_neg havailable] at hdecision'
    obtain ⟨candidates', hcandidates', hdecision'⟩ := Outcome.bind_ok hdecision'
    obtain ⟨selection', hselection', hdecision'⟩ := Outcome.bind_ok hdecision'
    obtain rfl := Except.ok.inj hdecision'
    unfold candidatesIn at hcandidates' ⊢
    rw [hmodels] at hcandidates'
    obtain ⟨candidates, hcandidates, hall⟩ := mapM_relaxes htokens hcosts h
      (fun modelAlias => if service.tracksHealth then health modelAlias
        else .healthy) hmem hcandidates'
    -- the weights of the experiment are the same for both requests
    obtain ⟨selection, hselection⟩ :
      ∃ selection, service.routeSelection request policy candidates = .ok selection :=
      select_ok_iff.mpr (select_ok_iff.mp ⟨selection', hselection'⟩)
    rw [hcandidates]
    refine ⟨_, Outcome.bind_ok_iff.mpr ⟨candidates, rfl,
      Outcome.bind_ok_iff.mpr ⟨selection, hselection, rfl⟩⟩, hall⟩

/-- **Eligibility is monotone in the request.** Over prices that are not negative, where a request
comes to a decision, a request that asks for less comes to one over the same models, in which each
candidate is eligible if it is eligible for the other request, and costs at most as much. -/
theorem eligibility_monotone {world : World} {s : WorldState}
    (hpolicy : world.policy request.applicationId = .ok policy)
    (h : Demanding policy request request')
    (hprices : ∀ model ∈ service.modelCatalogue.models, model.pricing.Nonneg)
    {decision' : RoutingDecision}
    (hdecision' : (exec world.answer (service.evaluate request') s).1 = .ok decision') :
    ∃ decision, (exec world.answer (service.evaluate request) s).1 = .ok decision ∧
      List.Forall₂ RouteCandidate.Relaxes decision.consideredCandidates
        decision'.consideredCandidates := by
  rw [World.exec_evaluate (h.applicationId ▸ hpolicy)] at hdecision'
  rw [World.exec_evaluate hpolicy]
  exact decisionIn_mono htokens hcosts h _ hprices hdecision'

end Requests

namespace Scenario

/-- The scenario's request with a longer message. -/
def longer : InferenceRequest :=
  { request with messages := [⟨.user, "hello, how are you"⟩], messages_ne := by decide }

theorem longer_demanding : Demanding policy request longer where
  applicationId := rfl
  capability := rfl
  qualityTier := rfl
  requiresToolUse := rfl
  requiresStructuredOutput := rfl
  chars := by decide
  outputTokens := le_rfl
  costLimit := le_rfl

/-- Both requests are routed, the shorter one to candidates that relax those of the other. -/
theorem longer_relaxed : ∃ decision decision',
    (exec answering.answer (orchestrator.routeEvaluationService.evaluate longer) fresh).1 =
      .ok decision' ∧
      (exec answering.answer (orchestrator.routeEvaluationService.evaluate request) fresh).1 =
        .ok decision ∧
      List.Forall₂ RouteCandidate.Relaxes decision.consideredCandidates
        decision'.consideredCandidates := by
  have hprices : ∀ model ∈ catalogue.models, model.pricing.Nonneg := by
    intro definition hmem
    have hpricing : definition = model "primary" 3 ∨ definition = model "fallback" 1 := by
      simpa [catalogue] using hmem
    rcases hpricing with rfl | rfl <;> exact ⟨Bool.noConfusion, Bool.noConfusion⟩
  have hrouted : (exec answering.answer (orchestrator.routeEvaluationService.evaluate longer)
      fresh).1.isOk = true := by
    decide +kernel
  cases hdecision' : (exec answering.answer (orchestrator.routeEvaluationService.evaluate longer)
    fresh).1 with
  | error x =>
      rw [hdecision'] at hrouted
      cases hrouted
  | ok decision' =>
      obtain ⟨decision, hdecision, hall⟩ :=
        eligibility_monotone rfl rfl rfl longer_demanding hprices hdecision'
      exact ⟨decision, decision', rfl, hdecision, hall⟩

end Scenario

end ModelRouter
