import ModelRouter.Composition.EligibilityMonotone
import ModelRouter.Lib.DecimalError

/-!
# Estimated and exact costs

An estimated cost is rounded to six decimals, after an arithmetic of 28 digits.

* `exactCost` : the cost without any rounding; the estimate is half a millionth and an
  `arithmeticError` away from it at most (`estimate_error`);
* `costLimit_exact` : what the codes of a candidate say about its exact cost and the limit;
* `lowestCost_exact` : what the selection of the lowest estimated cost says about the exact costs.
-/

namespace ModelRouter
open Arith Effects Prog RouteEvaluationService Rounding

variable {usage : Usage} {pricing : ModelPricing} {cost : EstimatedCost}

/-! ## The exact cost -/

/-- What some tokens cost, without rounding. -/
def exactTokenCost (tokens : Nat) (price : Money) : ℚ := tokens / 1000 * price.toRat

def exactCost (usage : Usage) (pricing : ModelPricing) : ℚ :=
  exactTokenCost usage.inputTokens pricing.inputPricePer1kTokens +
    exactTokenCost usage.outputTokens pricing.outputPricePer1kTokens

/-- How far the arithmetic is off at most, before the total is rounded to six decimals. -/
def arithmeticError (usage : Usage) (pricing : ModelPricing) : ℚ :=
  2 / 10 ^ 27 * (|exactTokenCost usage.inputTokens pricing.inputPricePer1kTokens| +
    |exactTokenCost usage.outputTokens pricing.outputPricePer1kTokens|)

/-- Half a millionth. -/
def quantizationError : ℚ := 1 / 2000000

theorem tokenCost_close (tokens : Nat) (price : Money) :
    RelClose (Decimal.roundingError decimalPrecision +
        Decimal.roundingError decimalPrecision * (1 + Decimal.roundingError decimalPrecision))
      (exactTokenCost tokens price) (tokenCost tokens price).toRat := by
  have hprec : 0 < decimalPrecision := by decide
  have hdiv := Decimal.div_close hprec (ofNat_nonneg tokens) (ofNat_nonneg 1000) (by decide)
  have hvalue : (Decimal.ofNat tokens).toRat / (Decimal.ofNat 1000).toRat = tokens / 1000 := by
    rw [Decimal.toRat_of_nonneg (ofNat_nonneg tokens), Decimal.toRat_of_nonneg (ofNat_nonneg 1000)]
    simp [Decimal.ofNat]
  rw [hvalue] at hdiv
  exact (hdiv.mul_right price.toRat).trans Decimal.roundingError_nonneg
    (Decimal.mul_close hprec _ _)

theorem unroundedCost_error (usage : Usage) (pricing : ModelPricing) :
    |(unroundedCost usage pricing).toRat - exactCost usage pricing|
      ≤ arithmeticError usage pricing := by
  have hprec : 0 < decimalPrecision := by decide
  have hsum := RelClose.add Decimal.roundingError_nonneg
    (tokenCost_close usage.inputTokens pricing.inputPricePer1kTokens)
    (tokenCost_close usage.outputTokens pricing.outputPricePer1kTokens)
      (Decimal.add_close hprec _ _)
  refine hsum.trans (mul_le_mul_of_nonneg_right ?_ (by positivity))
  norm_num [Decimal.roundingError, decimalPrecision]

/-- **The estimate is near the exact cost.** -/
theorem estimate_error (h : DefaultCostEstimator.estimate usage pricing = .ok cost) :
    |cost.amountUsd.toRat - exactCost usage pricing|
      ≤ quantizationError + arithmeticError usage pricing := by
  obtain ⟨-, total, htotal, rfl⟩ := costEstimate_ok_iff.mp h
  have hquantize := Decimal.quantize_error htotal
  have harithmetic := unroundedCost_error usage pricing
  have htriangle := abs_sub_le total.toRat (unroundedCost usage pricing).toRat
      (exactCost usage pricing)
  have hhalf : (10 : ℚ) ^ (-6 : Int) / 2 = quantizationError := by norm_num [quantizationError]
  rw [hhalf] at hquantize
  exact htriangle.trans (add_le_add hquantize harithmetic)

theorem estimate_le_of_exact {n : Int} (h : DefaultCostEstimator.estimate usage pricing = .ok cost)
    (herror : arithmeticError usage pricing < quantizationError)
    (hle : exactCost usage pricing ≤ n * 10 ^ (-6 : Int)) :
    cost.amountUsd.toRat ≤ n * 10 ^ (-6 : Int) := by
  obtain ⟨-, total, htotal, rfl⟩ := costEstimate_ok_iff.mp h
  have harithmetic := (abs_le.mp (unroundedCost_error usage pricing)).2
  have hhalf : (10 : ℚ) ^ (-6 : Int) / 2 = quantizationError := by norm_num [quantizationError]
  refine Decimal.quantize_le htotal ?_
  show (unroundedCost usage pricing).toRat < _
  rw [hhalf]
  linarith

/-! ## The cost limit -/

section Candidate
variable {model : ModelDefinition} {requirements : EffectiveRoutingRequirements}
  {policy : RoutingPolicy}
  {tokenEstimator : TokenEstimator} {messages : List Message} {healthStatus : ModelHealthStatus}
  {candidate : RouteCandidate}

theorem withinCostLimit_mem_iff {tokens : Usage} : .withinCostLimit ∈
    candidateCodes model requirements policy tokens cost healthStatus ↔
    withinCostLimit requirements cost = true := by
  unfold candidateCodes healthCodes
  simp only [List.mem_append, List.mem_singleton, or_assoc]
  cases healthStatus <;> split_ifs <;> simp_all

theorem costLimitExceeded_mem_iff {tokens : Usage} : .costLimitExceeded ∈
    candidateCodes model requirements policy tokens cost healthStatus ↔
    withinCostLimit requirements cost = false := by
  unfold candidateCodes healthCodes
  simp only [List.mem_append, List.mem_singleton, or_assoc]
  cases healthStatus <;> split_ifs <;> simp_all

/-- **The cost limit and the exact cost.** A candidate within the limit, such as an eligible one,
costs at most half a millionth more than the limit, one that exceeds it at least half a millionth
less, up to the error of the arithmetic; and within a limit that is a number of millionths no exact
cost exceeds it. -/
theorem costLimit_exact
    (h : evaluateCandidate model requirements policy tokenEstimator DefaultCostEstimator messages
    healthStatus = .ok candidate) :
    (candidate.eligible = true → .withinCostLimit ∈ candidate.reasonCodes) ∧
      (.withinCostLimit ∈ candidate.reasonCodes →
        exactCost candidate.estimatedUsage model.pricing ≤
          requirements.maximumEstimatedCostUsd.toRat +
          (quantizationError + arithmeticError candidate.estimatedUsage model.pricing)) ∧
      (.costLimitExceeded ∈ candidate.reasonCodes →
        requirements.maximumEstimatedCostUsd.toRat <
          exactCost candidate.estimatedUsage model.pricing +
          (quantizationError + arithmeticError candidate.estimatedUsage model.pricing)) ∧
      (∀ n : Int, requirements.maximumEstimatedCostUsd.toRat = n * 10 ^ (-6 : Int) →
        arithmeticError candidate.estimatedUsage model.pricing < quantizationError →
          exactCost candidate.estimatedUsage model.pricing ≤
            requirements.maximumEstimatedCostUsd.toRat →
            .costLimitExceeded ∉ candidate.reasonCodes) := by
  obtain ⟨-, -, -, hcost, heligible, hcodes⟩ := evaluateCandidate_ok h
  have herror := abs_le.mp (estimate_error hcost)
  have hwithin : .withinCostLimit ∈ candidate.reasonCodes ↔
      candidate.estimatedCost.amountUsd.toRat ≤ requirements.maximumEstimatedCostUsd.toRat := by
    rw [hcodes, mem_sortReasonCodes, withinCostLimit_mem_iff, withinCostLimit, decide_eq_true_eq,
      Decimal.le_iff]
  have hexceeded : .costLimitExceeded ∈ candidate.reasonCodes ↔
      requirements.maximumEstimatedCostUsd.toRat < candidate.estimatedCost.amountUsd.toRat := by
    rw [hcodes, mem_sortReasonCodes, costLimitExceeded_mem_iff, withinCostLimit,
      decide_eq_false_iff_not, Decimal.le_iff,
      not_le]
  refine ⟨fun hel => ?_, fun hmem => ?_, fun hmem => ?_, fun n hn harithmetic hle hmem => ?_⟩
  · rw [heligible, candidateEligible_iff] at hel
    exact hwithin.mpr hel.cost
  · have hle := hwithin.mp hmem
    linarith
  · have hlt := hexceeded.mp hmem
    linarith
  · have hlt := hexceeded.mp hmem
    rw [hn] at hle hlt
    exact absurd (estimate_le_of_exact hcost harithmetic hle) (not_le.mpr hlt)

end Candidate

namespace Scenario

/-- A model with a price for what it reads only. -/
def priced (modelAlias : String) (price : Money) : ModelDefinition :=
  { model modelAlias 3 with pricing := ⟨price, ⟨false, 0, 0⟩⟩ }

def limited (limit : Money) : EffectiveRoutingRequirements :=
  { resolveEffectiveRequirements request.requirements policy with maximumEstimatedCostUsd := limit }

/-- The candidate of a model that costs 0.0000014. -/
def overLimit : RouteCandidate where
  modelAlias := "primary"
  provider := .bedrock
  eligible := true
  reasonCodes := [.capabilityMatch, .modelAllowed, .withinCostLimit, .qualityTierMatch]
  estimatedUsage := ⟨2, 500⟩
  estimatedCost := ⟨⟨false, 1, -6⟩⟩

/-- The candidate of a model that costs 0.0000015. -/
def underLimit : RouteCandidate := { overLimit with
  eligible := false
  reasonCodes := [.capabilityMatch, .modelAllowed, .costLimitExceeded, .qualityTierMatch]
  estimatedCost := ⟨⟨false, 2, -6⟩⟩ }

theorem evaluate_overLimit :
    evaluateCandidate (priced "primary" ⟨false, 7, -4⟩) (limited ⟨false, 1, -6⟩) policy
    DefaultTokenEstimator DefaultCostEstimator request.messages .healthy = .ok overLimit := by
  decide +kernel

theorem evaluate_underLimit :
    evaluateCandidate (priced "primary" ⟨false, 75, -5⟩) (limited ⟨false, 16, -7⟩) policy
    DefaultTokenEstimator DefaultCostEstimator request.messages .healthy = .ok underLimit := by
  decide +kernel

/-- The cost 0.0000014 is within the limit 0.000001, by less than half a millionth. -/
theorem overLimit_exact :
    exactCost overLimit.estimatedUsage (priced "primary" ⟨false, 7, -4⟩).pricing ≤
      (limited ⟨false, 1, -6⟩).maximumEstimatedCostUsd.toRat +
        (quantizationError + arithmeticError overLimit.estimatedUsage
          (priced "primary" ⟨false, 7, -4⟩).pricing) :=
  (costLimit_exact evaluate_overLimit).2.1 (by decide)

/-- The cost 0.0000014 is within the limit 0.000001, and 0.0000015 exceeds 0.0000016. -/
theorem limit_inexact :
    (evaluateCandidate (priced "primary" ⟨false, 7, -4⟩)
      (limited ⟨false, 1, -6⟩) policy DefaultTokenEstimator
        DefaultCostEstimator request.messages .healthy = .ok overLimit ∧
      .withinCostLimit ∈ overLimit.reasonCodes ∧ overLimit.eligible = true ∧
      (limited ⟨false, 1, -6⟩).maximumEstimatedCostUsd.toRat <
        exactCost overLimit.estimatedUsage (priced "primary" ⟨false, 7, -4⟩).pricing) ∧
    (evaluateCandidate (priced "primary" ⟨false, 75, -5⟩)
      (limited ⟨false, 16, -7⟩) policy DefaultTokenEstimator
        DefaultCostEstimator request.messages .healthy = .ok underLimit ∧
      .costLimitExceeded ∈ underLimit.reasonCodes ∧
      exactCost underLimit.estimatedUsage (priced "primary" ⟨false, 75, -5⟩).pricing ≤
        (limited ⟨false, 16, -7⟩).maximumEstimatedCostUsd.toRat) :=
  ⟨⟨evaluate_overLimit, by decide, rfl, by decide +kernel⟩,
    evaluate_underLimit, by decide, by decide +kernel⟩

end Scenario

/-! ## The lowest cost -/

section Lowest
variable {service : RouteEvaluationService} {request : InferenceRequest} {policy : RoutingPolicy}
  {tr : List (Event Ports)} {decision : RoutingDecision}

theorem selected_least (h : service.Evaluated request policy tr decision)
    (hcode : .lowestEstimatedCost ∈ decision.reasonCodes) :
    ∃ candidate ∈ decision.consideredCandidates, candidate.eligible = true ∧
      decision.selectedModelAlias = some candidate.modelAlias ∧
        ∀ other ∈ decision.consideredCandidates, other.eligible = true →
          costKey candidate ≤ costKey other := by
  cases h with
  | unavailable => exact absurd hcode (by simp [routingDecision])
  | considered decisionId createdAt candidates selection hallowed hcandidates hselection =>
      replace hcode : .lowestEstimatedCost ∈ routeReasonCodes selection := hcode
      cases hselected : selection.selected with
      | none =>
          rw [routeReasonCodes, hselected] at hcode
          exact absurd (List.mem_singleton.mp hcode) (by decide)
      | some candidate =>
          obtain ⟨hmem, heligible⟩ := List.mem_filter.mp (select_mem hselection hselected)
          obtain ⟨model, -, status, -, hcandidate⟩ := exists_of_forall₂_mem hcandidates hmem
          rw [routeReasonCodes, hselected, mem_sortReasonCodes, List.mem_append] at hcode
          have hadded := hcode.resolve_left fun hown => by
            rw [(evaluateCandidate_ok hcandidate).2.2.2.2.2, mem_sortReasonCodes] at hown
            exact absurd (mem_candidateCodes hown) (by decide)
          have hstrategy := (lowest_mem_select_codes hselection hselected).mp hadded
          refine ⟨candidate, hmem, heligible, ?_, fun other hother hel => ?_⟩
          · show selection.selected.map (·.modelAlias) = _
            rw [hselected]
            rfl
          · unfold routeSelection at hselection
            rw [hstrategy] at hselection
            exact lowestCost_key hselection hselected (List.mem_filter.mpr ⟨hother, hel⟩)

theorem considered_cost (hcosts : service.costEstimator = DefaultCostEstimator)
    (h : service.Evaluated request policy tr decision) {candidate : RouteCandidate}
    (hmem : candidate ∈ decision.consideredCandidates) {model : ModelDefinition}
    (hmodel : model ∈ service.modelCatalogue.models)
    (halias : model.modelAlias = candidate.modelAlias) :
    DefaultCostEstimator.estimate candidate.estimatedUsage model.pricing =
      .ok candidate.estimatedCost := by
  cases h with
  | unavailable => cases hmem
  | considered decisionId createdAt candidates selection hallowed hcandidates hselection =>
      obtain ⟨own, hown, status, -, hcandidate⟩ := exists_of_forall₂_mem hcandidates hmem
      obtain ⟨hname, -, -, hcost, -⟩ := evaluateCandidate_ok hcandidate
      obtain rfl := ModelCatalogue.eq_of_alias hmodel
        (ModelCatalogue.mem_findByCapability.mp hown).1 (halias.trans hname)
      exact hcosts ▸ hcost

/-- **The lowest estimated cost and the exact costs.** A decision for the lowest estimated cost
selects an eligible candidate whose estimate is least, and whose alias is the smallest of those with
this estimate. Its exact cost is at most a millionth above that of any other eligible candidate, up
to the errors of the arithmetic. -/
theorem lowestCost_exact (hcosts : service.costEstimator = DefaultCostEstimator)
    (h : Run (service.evaluate request) tr (.ok decision))
    (hcode : .lowestEstimatedCost ∈ decision.reasonCodes) :
    ∃ candidate ∈ decision.consideredCandidates, candidate.eligible = true ∧
      decision.selectedModelAlias = some candidate.modelAlias ∧
        ∀ other ∈ decision.consideredCandidates, other.eligible = true →
          (candidate.estimatedCost.amountUsd.toRat < other.estimatedCost.amountUsd.toRat ∨
            candidate.estimatedCost.amountUsd.toRat = other.estimatedCost.amountUsd.toRat ∧
              candidate.modelAlias ≤ other.modelAlias) ∧
          ∀ model ∈ service.modelCatalogue.models, ∀ model' ∈ service.modelCatalogue.models,
            model.modelAlias = candidate.modelAlias → model'.modelAlias = other.modelAlias →
              exactCost candidate.estimatedUsage model.pricing ≤
                exactCost other.estimatedUsage model'.pricing +
                (2 * quantizationError + arithmeticError candidate.estimatedUsage model.pricing +
                  arithmeticError other.estimatedUsage model'.pricing) := by
  obtain ⟨policy, -, hevaluated⟩ := run_evaluate h
  obtain ⟨candidate, hmem, heligible, hselected, hleast⟩ := selected_least hevaluated hcode
  refine ⟨candidate, hmem, heligible, hselected, fun other hother hel => ⟨?_, ?_⟩⟩
  · exact Prod.Lex.le_iff.mp (hleast other hother hel)
  · intro model hmodel model' hmodel' halias halias'
    have hle := costKey_le (hleast other hother hel)
    have herror := abs_le.mp (estimate_error (considered_cost hcosts hevaluated hmem hmodel halias))
    have herror' := abs_le.mp
        (estimate_error (considered_cost hcosts hevaluated hother hmodel' halias'))
    rw [Decimal.le_iff] at hle
    linarith

end Lowest

namespace Scenario

/-- Two models whose costs 0.0000014 and 0.0000008 are one estimate. -/
def nearby : RouteEvaluationService where
  modelCatalogue := { models := [priced "alpha" ⟨false, 7, -4⟩, priced "beta" ⟨false, 4, -4⟩] }
  digestPrefix _ := 0
  tracksHealth := true

/-- The cheapest model is to serve. -/
def thrifty : World := { answering with
  policy := fun _ => .ok { policyFields with
    allowedModelAliases := ["alpha", "beta"]
    allowedModelAliases_ne := by decide
    routingStrategy := .lowestCost
    preferredModelAlias := none
    fallbackPolicy := { maximumAttempts := 4 } } }

theorem nearby_selected :
    (exec thrifty.answer (nearby.evaluate request) fresh).1.toOption.map (fun decision =>
      (decide (.lowestEstimatedCost ∈ decision.reasonCodes), decision.selectedModelAlias,
        (decision.consideredCandidates.filter (·.eligible)).map fun candidate =>
          (candidate.modelAlias, candidate.estimatedUsage))) =
    some (true, some "alpha", [("alpha", ⟨2, 500⟩), ("beta", ⟨2, 500⟩)]) := by
  decide +kernel

/-- The model `alpha` is selected, and its estimate is least. -/
theorem nearby_exact : ∃ (decision : RoutingDecision) (candidate : RouteCandidate),
    candidate ∈ decision.consideredCandidates ∧
    decision.selectedModelAlias = some candidate.modelAlias ∧
      candidate.modelAlias = "alpha" ∧
      ∀ other ∈ decision.consideredCandidates, other.eligible = true →
        candidate.estimatedCost.amountUsd.toRat ≤ other.estimatedCost.amountUsd.toRat := by
  obtain ⟨decision, hrun, hdecision⟩ := run_of_exec nearby_selected
  simp only [Prod.mk.injEq, decide_eq_true_eq] at hdecision
  obtain ⟨hcode, hselected, -⟩ := hdecision
  obtain ⟨candidate, hmem, -, halias, hleast⟩ := lowestCost_exact rfl hrun hcode
  refine ⟨decision, candidate, hmem, halias, ?_, fun other hother hel => ?_⟩
  · exact Option.some.inj (halias.symm.trans hselected)
  · rcases (hleast other hother hel).1 with hlt | ⟨heq, -⟩
    · exact hlt.le
    · exact heq.le

/-- The model `alpha` is selected for the lowest estimated cost, and the eligible `beta` has a lower
one. -/
theorem lowest_inexact : ∃ (tr : List (Event Ports)) (decision : RoutingDecision),
    Run (nearby.evaluate request) tr (.ok decision) ∧ .lowestEstimatedCost ∈ decision.reasonCodes ∧
      decision.selectedModelAlias = some "alpha" ∧
      (decision.consideredCandidates.filter (·.eligible)).map (fun candidate =>
        (candidate.modelAlias, candidate.estimatedUsage)) =
        [("alpha", ⟨2, 500⟩), ("beta", ⟨2, 500⟩)] ∧
      exactCost ⟨2, 500⟩ (priced "beta" ⟨false, 4, -4⟩).pricing <
        exactCost ⟨2, 500⟩ (priced "alpha" ⟨false, 7, -4⟩).pricing := by
  obtain ⟨decision, hrun, hdecision⟩ := run_of_exec nearby_selected
  simp only [Prod.mk.injEq, decide_eq_true_eq] at hdecision
  obtain ⟨hcode, hselected, heligible⟩ := hdecision
  exact ⟨_, decision, hrun, hcode, hselected, heligible, by decide +kernel⟩

end Scenario

end ModelRouter
