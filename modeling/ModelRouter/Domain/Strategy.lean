import Mathlib.Data.List.MinMax
import Mathlib.Data.Prod.Lex
import Mathlib.Data.Rat.Floor
import ModelRouter.Domain.Filtering
import ModelRouter.Lib.Rounding

/-!
# Experiments and routing strategies

* `assignExperimentCohort` : the arm of a subject, by the share of the hash space its digest falls
  in; the digest is a parameter, `digestPrefix key` the number its first eight hex digits write;
* `getStrategy` : the selection among the eligible candidates of each strategy. A selection is one
  of them (`select_mem`) and comes with at most one code of its own (`select_codes`);
  `select_eq_none_iff` says when there is none, and `select_ok_iff` when a strategy raises instead.
-/

namespace ModelRouter
open Arith

/-! ## Experiments -/

/-- `_HASH_SPACE`. -/
def hashSpace : Nat := 0xFFFFFFFF

def buildExperimentSubjectKey (experiment : ExperimentPolicy) (applicationId : String)
    (conversationId : Option String) : String :=
  let application := match experiment.subjectKeySource with
    | .applicationId | .applicationAndConversation => [applicationId]
    | .conversationId => []
  let conversation := match experiment.subjectKeySource with
    | .conversationId | .applicationAndConversation => conversationId.toList
    | .applicationId => []
  String.intercalate "|" ([experiment.experimentId] ++ application ++ conversation)

/-- The first arm whose cumulative weight exceeds the threshold. -/
def cohortArm (threshold : ℚ) : Nat → List ExperimentArm → Option String
  | _, [] => none
  | cumulative, arm :: arms =>
    if threshold < (cumulative + arm.weight : Nat) then some arm.modelAlias
    else cohortArm threshold (cumulative + arm.weight) arms

theorem arms_ne (experiment : ExperimentPolicy) : experiment.arms ≠ [] := by
  intro h
  have := experiment.two_arms
  rw [h] at this
  simp at this

def ExperimentPolicy.totalWeight (experiment : ExperimentPolicy) : Nat :=
  (experiment.arms.map (·.weight)).sum

/-- The arm of a digest that begins with `h`, when `rounding` is applied to every number that is
computed. -/
def armAt (rounding : ℚ → ℚ) (experiment : ExperimentPolicy) (h : Nat) : String :=
  let bucket := rounding (h / hashSpace)
  let threshold := rounding (bucket * rounding experiment.totalWeight)
  match cohortArm threshold 0 experiment.arms with
  | some modelAlias => modelAlias
  | none => (experiment.arms.getLast (arms_ne experiment)).modelAlias

/-- The nearest double, of 53 binary digits; the numbers of an assignment are neither subnormal nor
infinite. -/
def double (x : ℚ) : ℚ := Rounding.rounded 2 53 x

/-- The least integer that is rounded to `2 ^ 1024`, which no double is. -/
@[irreducible] def floatLimit : Nat := 2 ^ 1024 - 2 ^ 970

/-- `bucket * total_weight` converts the weight to a double. -/
def assignExperimentCohort (digestPrefix : String → Nat) (subjectKey : String)
    (experiment : ExperimentPolicy) : Except PyException String :=
  if floatLimit ≤ experiment.totalWeight then .error (.other "OverflowError")
  else .ok (armAt double experiment (digestPrefix subjectKey))

/-! ## Strategies -/

structure RoutingContext where
  applicationId : String
  conversationId : Option String := none

structure RouteSelection where
  selected : Option RouteCandidate
  additionalReasonCodes : List RoutingReasonCode := []

structure RoutingStrategy where
  select : List RouteCandidate → RoutingPolicy → EffectiveRoutingRequirements → RoutingContext →
    Except PyException RouteSelection

def PreferredModelStrategy : RoutingStrategy where
  select eligible policy _ _ :=
    .ok { selected := eligible.find? fun candidate =>
      some candidate.modelAlias = policy.preferredModelAlias }

/-- The key `(c.estimated_cost.amount_usd, c.model_alias)`. -/
def costKey (candidate : RouteCandidate) : ℚ ×ₗ String :=
  toLex (candidate.estimatedCost.amountUsd.toRat, candidate.modelAlias)

def LowestCostStrategy : RoutingStrategy where
  select eligible _ _ _ := match eligible.argmin costKey with
    | none => .ok { selected := none }
    | some winner =>
        .ok { selected := some winner, additionalReasonCodes := [.lowestEstimatedCost] }

def QualityTierStrategy : RoutingStrategy where
  select eligible _ _ _ := .ok { selected := eligible.argmin (·.modelAlias) }

def ExperimentStrategy (digestPrefix : String → Nat) : RoutingStrategy where
  select eligible policy _ context := match policy.experimentPolicy with
    | none => .ok { selected := none }
    | some experiment =>
      let subjectKey :=
        buildExperimentSubjectKey experiment context.applicationId context.conversationId
      match assignExperimentCohort digestPrefix subjectKey experiment with
      | .error x => .error x
      | .ok assignedAlias =>
        match eligible.find? fun candidate => candidate.modelAlias = assignedAlias with
        | some candidate =>
          .ok { selected := some candidate, additionalReasonCodes := [.experimentRouteSelected] }
        | none => .ok { selected := none }

def getStrategy (digestPrefix : String → Nat) : RoutingStrategyType → RoutingStrategy
  | .preferredModel => PreferredModelStrategy
  | .lowestCost => LowestCostStrategy
  | .qualityTier => QualityTierStrategy
  | .experiment => ExperimentStrategy digestPrefix

variable {digestPrefix : String → Nat} {eligible : List RouteCandidate} {policy : RoutingPolicy}
  {requirements : EffectiveRoutingRequirements} {context : RoutingContext}
  {candidate : RouteCandidate} {selection : RouteSelection}

/-- What the experiment strategy selects: the candidate of the assigned arm, if it is eligible. -/
theorem experiment_select_ok
    (h : (ExperimentStrategy digestPrefix).select eligible policy requirements context =
      .ok selection) :
    selection = { selected := none } ∧
        (∀ experiment ∈ policy.experimentPolicy, ∀ candidate ∈ eligible,
          assignExperimentCohort digestPrefix
            (buildExperimentSubjectKey experiment context.applicationId context.conversationId)
              experiment ≠
              .ok candidate.modelAlias) ∨
      ∃ experiment candidate, policy.experimentPolicy = some experiment ∧ candidate ∈ eligible ∧
        assignExperimentCohort digestPrefix
          (buildExperimentSubjectKey experiment context.applicationId context.conversationId)
            experiment =
            .ok candidate.modelAlias ∧
        selection = { selected := some candidate, additionalReasonCodes := [.experimentRouteSelected] } := by
  unfold ExperimentStrategy at h
  dsimp only at h
  split at h
  · rename_i hnone
    cases h
    refine Or.inl ⟨rfl, fun experiment hexperiment => ?_⟩
    rw [hnone] at hexperiment
    cases hexperiment
  · rename_i experiment hsome
    split at h
    · cases h
    · rename_i assignedAlias hassigned
      split at h
      · rename_i candidate hfound
        cases h
        have halias : candidate.modelAlias = assignedAlias := by simpa using List.find?_some hfound
        exact Or.inr ⟨experiment, candidate, hsome, List.mem_of_find?_eq_some hfound,
          halias ▸ hassigned, rfl⟩
      · rename_i hnone
        cases h
        refine Or.inl ⟨rfl, fun experiment' hexperiment candidate hcandidate hassigned' => ?_⟩
        cases hsome.symm.trans hexperiment
        have hdiffers := List.find?_eq_none.mp hnone candidate hcandidate
        rw [hassigned] at hassigned'
        cases hassigned'
        simp at hdiffers

/-- What the lowest-cost strategy selects. -/
theorem lowestCost_select_ok
    (h : LowestCostStrategy.select eligible policy requirements context = .ok selection) :
    selection = { selected := none } ∧ eligible = [] ∨ ∃ winner ∈ eligible.argmin costKey,
      selection = { selected := some winner, additionalReasonCodes := [.lowestEstimatedCost] } := by
  unfold LowestCostStrategy at h
  dsimp only at h
  split at h
  · rename_i hnone
    cases h
    exact Or.inl ⟨rfl, List.argmin_eq_none.mp hnone⟩
  · rename_i winner hwinner
    cases h
    exact Or.inr ⟨winner, hwinner, rfl⟩

/-- A strategy selects among the eligible candidates. -/
theorem select_mem {strategy : RoutingStrategyType}
    (h : (getStrategy digestPrefix strategy).select eligible policy requirements context =
      .ok selection)
    (hselected : selection.selected = some candidate) : candidate ∈ eligible := by
  cases strategy with
  | preferredModel =>
      cases h
      exact List.mem_of_find?_eq_some hselected
  | qualityTier =>
      cases h
      exact List.argmin_mem hselected
  | lowestCost =>
      obtain ⟨rfl, -⟩ | ⟨winner, hwinner, rfl⟩ := lowestCost_select_ok h
      · cases hselected
      · cases hselected
        exact List.argmin_mem hwinner
  | experiment =>
      obtain ⟨rfl, -⟩ | ⟨-, found, -, hmem, -, rfl⟩ := experiment_select_ok h
      · cases hselected
      · cases hselected
        exact hmem

/-- The codes a selection adds. -/
theorem select_codes {strategy : RoutingStrategyType} {code : RoutingReasonCode}
    (h : (getStrategy digestPrefix strategy).select eligible policy requirements context =
      .ok selection)
    (hcode : code ∈ selection.additionalReasonCodes) : code = .lowestEstimatedCost ∨
    code = .experimentRouteSelected := by
  cases strategy with
  | preferredModel =>
      cases h
      cases hcode
  | qualityTier =>
      cases h
      cases hcode
  | lowestCost =>
      obtain ⟨rfl, -⟩ | ⟨winner, -, rfl⟩ := lowestCost_select_ok h
      · cases hcode
      · exact Or.inl (List.mem_singleton.mp hcode)
  | experiment =>
      obtain ⟨rfl, -⟩ | ⟨experiment, found, -, -, -, rfl⟩ := experiment_select_ok h
      · cases hcode
      · exact Or.inr (List.mem_singleton.mp hcode)

/-! ## What a strategy would select -/

/-- The strategy of the policy would select the candidate, if it were eligible. -/
def selectable (digestPrefix : String → Nat) (policy : RoutingPolicy) (context : RoutingContext)
    (candidate : RouteCandidate) : Bool :=
  match policy.routingStrategy with
  | .preferredModel => some candidate.modelAlias = policy.preferredModelAlias
  | .lowestCost | .qualityTier => true
  | .experiment => policy.experimentPolicy.any fun experiment =>
    assignExperimentCohort digestPrefix
      (buildExperimentSubjectKey experiment context.applicationId context.conversationId)
        experiment =
        .ok candidate.modelAlias

/-- A strategy selects nothing exactly if it would select no eligible candidate. -/
theorem select_eq_none_iff
    (h : (getStrategy digestPrefix policy.routingStrategy).select eligible policy requirements
      context = .ok selection) :
    selection.selected = none ↔
    ∀ candidate ∈ eligible, selectable digestPrefix policy context candidate = false := by
  unfold selectable
  cases hstrategy : policy.routingStrategy with
  | preferredModel =>
      rw [hstrategy] at h
      cases h
      simp
  | qualityTier =>
      rw [hstrategy] at h
      cases h
      rw [List.argmin_eq_none, List.eq_nil_iff_forall_not_mem]
      simp
  | lowestCost =>
      rw [hstrategy] at h
      obtain ⟨rfl, rfl⟩ | ⟨winner, hwinner, rfl⟩ := lowestCost_select_ok h
      · simp
      · refine iff_of_false (by simp) fun hall => ?_
        cases hall winner (List.argmin_mem hwinner)
  | experiment =>
      rw [hstrategy] at h
      dsimp only
      obtain ⟨rfl, hnone⟩ | ⟨experiment, found, hexperiment, hmem, hassigned, rfl⟩ :=
        experiment_select_ok h
      · refine iff_of_true rfl fun candidate hcandidate => ?_
        cases hexperiment : policy.experimentPolicy with
        | none => rfl
        | some experiment =>
            exact decide_eq_false (hnone experiment hexperiment candidate hcandidate)
      · refine iff_of_false (by simp) fun hall => ?_
        have hfound := hall found hmem
        rw [hexperiment, Option.any_some, decide_eq_false_iff_not] at hfound
        exact hfound hassigned

/-- The weights of the policy's experiment are beyond a double. -/
def RoutingPolicy.Overweight (policy : RoutingPolicy) : Prop :=
  policy.routingStrategy = .experiment ∧
  ∃ experiment ∈ policy.experimentPolicy, floatLimit ≤ experiment.totalWeight

/-- A strategy selects, or finds nothing to select, unless the weights are beyond a double. -/
theorem select_ok_iff :
    (∃ selection, (getStrategy digestPrefix policy.routingStrategy).select eligible policy
      requirements context =
      .ok selection) ↔ ¬ policy.Overweight := by
  unfold RoutingPolicy.Overweight
  cases hstrategy : policy.routingStrategy with
  | preferredModel => exact iff_of_true ⟨_, rfl⟩ (by simp)
  | qualityTier => exact iff_of_true ⟨_, rfl⟩ (by simp)
  | lowestCost =>
      refine iff_of_true ?_ (by simp)
      show ∃ selection, LowestCostStrategy.select eligible policy requirements context =
          .ok selection
      unfold LowestCostStrategy
      dsimp only
      split <;> exact ⟨_, rfl⟩
  | experiment =>
      show (∃ selection, (ExperimentStrategy digestPrefix).select eligible policy requirements
          context = .ok selection) ↔ _
      dsimp only [ExperimentStrategy, assignExperimentCohort]
      cases policy.experimentPolicy with
      | none => exact iff_of_true ⟨_, rfl⟩ (by simp)
      | some experiment =>
          dsimp only
          by_cases hweight : floatLimit ≤ experiment.totalWeight
          · rw [if_pos hweight]
            exact iff_of_false (by simp) fun h => h ⟨rfl, experiment, rfl, hweight⟩
          · rw [if_neg hweight]
            refine iff_of_true ?_ ?_
            · dsimp only
              split <;> exact ⟨_, rfl⟩
            · rintro ⟨-, _, ⟨⟩, hover⟩
              exact hweight hover

/-- `LOWEST_ESTIMATED_COST` comes with every selection of the lowest-cost strategy, and with no
other. -/
theorem lowest_mem_select_codes {strategy : RoutingStrategyType}
    (h : (getStrategy digestPrefix strategy).select eligible policy requirements context =
      .ok selection)
    (hselected : selection.selected = some candidate) :
    .lowestEstimatedCost ∈ selection.additionalReasonCodes ↔ strategy = .lowestCost := by
  cases strategy with
  | preferredModel =>
      cases h
      simp
  | qualityTier =>
      cases h
      simp
  | lowestCost =>
      obtain ⟨rfl, -⟩ | ⟨winner, -, rfl⟩ := lowestCost_select_ok h
      · cases hselected
      · simp
  | experiment =>
      obtain ⟨rfl, -⟩ | ⟨experiment, found, -, -, -, rfl⟩ := experiment_select_ok h <;> simp

/-- The lowest-cost strategy selects the candidate with the least key. -/
theorem lowestCost_key
    (h : (getStrategy digestPrefix .lowestCost).select eligible policy requirements context =
      .ok selection)
    (hselected : selection.selected = some candidate) {other : RouteCandidate}
    (hother : other ∈ eligible) :
    costKey candidate ≤ costKey other := by
  obtain ⟨rfl, -⟩ | ⟨winner, hwinner, rfl⟩ := lowestCost_select_ok h
  · cases hselected
  · cases hselected
    exact List.le_of_mem_argmin hother hwinner

theorem costKey_le {candidate other : RouteCandidate} (h : costKey candidate ≤ costKey other) :
    candidate.estimatedCost.amountUsd ≤ other.estimatedCost.amountUsd := by
  rw [Decimal.le_iff]
  rcases Prod.Lex.le_iff.mp h with hlt | ⟨heq, -⟩
  · exact le_of_lt hlt
  · exact le_of_eq heq

/-- The lowest-cost strategy selects a candidate of the lowest estimated cost. -/
theorem lowestCost_le
    (h : (getStrategy digestPrefix .lowestCost).select eligible policy requirements context =
      .ok selection)
    (hselected : selection.selected = some candidate) {other : RouteCandidate}
    (hother : other ∈ eligible) :
    candidate.estimatedCost.amountUsd ≤ other.estimatedCost.amountUsd :=
  costKey_le (lowestCost_key h hselected hother)

end ModelRouter
