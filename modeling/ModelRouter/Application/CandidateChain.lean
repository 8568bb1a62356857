import ModelRouter.Application.Orchestrator

/-!
# The candidate chain

`fallbackOrder` is the order in which models may serve a decision: the selected one, then the
eligible fallback aliases as configured, each once. `buildCandidateChain_eq` : the chain is its
beginning, as long as the policy has attempts. Every alias of the chain is one of an eligible
candidate (`mem_buildCandidateChain`).
-/

namespace ModelRouter
open Effects

namespace InvocationOrchestrator

/-- The selected alias and the eligible fallback aliases, in order and without repetitions. -/
def fallbackOrder (decision : RoutingDecision) (fallbackPolicy : FallbackPolicy) : List String :=
  (decision.selectedModelAlias.toList ++
    fallbackPolicy.fallbackModelAliases.filter (· ∈ eligibleAliases decision)).eraseDups

theorem eraseDups_of_nodup {α : Type} [DecidableEq α] {l : List α} (h : l.Nodup) :
    l.eraseDups = l := by
  induction l with
  | nil => rfl
  | cons a l ih =>
      obtain ⟨ha, hl⟩ := List.nodup_cons.mp h
      rw [List.eraseDups_cons, List.filter_eq_self.mpr, ih hl]
      intro b hb
      have hne : b ≠ a := fun hba => ha (hba ▸ hb)
      simpa using hne

theorem eraseDups_append_cons_mem {α : Type} [DecidableEq α] {l r : List α} {a : α} (h : a ∈ l) :
    (l ++ a :: r).eraseDups = (l ++ r).eraseDups := by
  rw [List.eraseDups_append, List.eraseDups_append]
  congr 2
  simp [List.removeAll, h]

theorem extendChain_eq (eligible : List String) (maximumAttempts : Nat)
    (aliases chain : List String) (hlen : chain.length ≤ maximumAttempts) (hnodup : chain.Nodup) :
    extendChain eligible maximumAttempts aliases chain =
      ((chain ++ aliases.filter (· ∈ eligible)).eraseDups).take maximumAttempts := by
  induction aliases generalizing chain with
  | nil =>
      rw [extendChain, List.filter_nil, List.append_nil, eraseDups_of_nodup hnodup,
        List.take_of_length_le hlen]
  | cons modelAlias aliases ih =>
      unfold extendChain
      by_cases hfull : maximumAttempts ≤ chain.length
      · rw [if_pos hfull, List.eraseDups_append, eraseDups_of_nodup hnodup,
          List.take_left' (by omega)]
      · rw [if_neg hfull]
        by_cases hadd : modelAlias ∈ eligible ∧ modelAlias ∉ chain
        · rw [if_pos hadd, ih (chain ++ [modelAlias]) (by simp; omega)
            (List.nodup_append.mpr ⟨hnodup, List.nodup_singleton _, by
              intro a ha b hb hab
              rw [List.mem_singleton.mp hb] at hab
              exact hadd.2 (hab ▸ ha)⟩),
            List.filter_cons_of_pos (by simpa using hadd.1), List.append_assoc]
          rfl
        · rw [if_neg hadd, ih chain hlen hnodup]
          by_cases hel : modelAlias ∈ eligible
          · have hmem : modelAlias ∈ chain := not_not.mp fun h => hadd ⟨hel, h⟩
            rw [List.filter_cons_of_pos (by simpa using hel), eraseDups_append_cons_mem hmem]
          · rw [List.filter_cons_of_neg (by simpa using hel)]

theorem toList_nodup {α : Type} (o : Option α) : o.toList.Nodup := by
  cases o <;> simp

/-- **The chain is the beginning of the fallback order**, at most `maximum_attempts` long. -/
theorem buildCandidateChain_eq (decision : RoutingDecision) (fallbackPolicy : FallbackPolicy) :
    buildCandidateChain decision fallbackPolicy =
      (fallbackOrder decision fallbackPolicy).take fallbackPolicy.maximumAttempts := by
  have hpos := fallbackPolicy.maximumAttempts_pos
  refine extendChain_eq _ _ _ _ ?_ (toList_nodup _)
  cases decision.selectedModelAlias with
  | none => exact Nat.zero_le _
  | some modelAlias => exact hpos

theorem buildCandidateChain_nodup (decision : RoutingDecision) (fallbackPolicy : FallbackPolicy) :
    (buildCandidateChain decision fallbackPolicy).Nodup := by
  rw [buildCandidateChain_eq]
  exact (nodup_eraseDups _).sublist (List.take_sublist _ _)

theorem selected_mem_chain {decision : RoutingDecision} {fallbackPolicy : FallbackPolicy}
    {modelAlias : String} (h : decision.selectedModelAlias = some modelAlias) :
    modelAlias ∈ buildCandidateChain decision fallbackPolicy := by
  have hpos := fallbackPolicy.maximumAttempts_pos
  obtain ⟨n, hn⟩ : ∃ n, fallbackPolicy.maximumAttempts = n + 1 :=
    ⟨_, (Nat.sub_add_cancel hpos).symm⟩
  rw [buildCandidateChain_eq, fallbackOrder, h, hn, Option.toList_some, List.singleton_append,
    List.eraseDups_cons, List.take_succ_cons]
  exact List.mem_cons_self

/-- Nothing can be attempted: nothing was selected and no eligible model is a fallback. -/
theorem buildCandidateChain_eq_nil_iff {decision : RoutingDecision}
    {fallbackPolicy : FallbackPolicy} :
    buildCandidateChain decision fallbackPolicy = [] ↔ decision.selectedModelAlias = none ∧
      ∀ modelAlias ∈ fallbackPolicy.fallbackModelAliases,
        modelAlias ∉ eligibleAliases decision := by
  have hpos := fallbackPolicy.maximumAttempts_pos
  have hmem : ∀ l : List String, l.eraseDups = [] ↔ l = [] := by
    intro l
    cases l with
    | nil => simp
    | cons a l => simp [List.eraseDups_cons]
  rw [buildCandidateChain_eq, List.take_eq_nil_iff, fallbackOrder, hmem, List.append_eq_nil_iff,
    List.filter_eq_nil_iff]
  constructor
  · rintro (hzero | ⟨hselected, hfallback⟩)
    · omega
    · exact ⟨by simpa using hselected, by simpa using hfallback⟩
  · rintro ⟨hselected, hfallback⟩
    exact Or.inr ⟨by simp [hselected], by simpa using hfallback⟩

variable {service : RouteEvaluationService} {request : InferenceRequest} {policy : RoutingPolicy}
  {tr : List (Event Ports)} {decision : RoutingDecision}

theorem selected_eligible {modelAlias : String} (h : service.Evaluated request policy tr decision)
    (hselected : decision.selectedModelAlias = some modelAlias) :
      modelAlias ∈ eligibleAliases decision := by
  cases h with
  | unavailable => cases hselected
  | considered decisionId createdAt candidates selection hallowed hcandidates hselection =>
      obtain ⟨candidate, hcandidate, rfl⟩ := Option.map_eq_some_iff.mp hselected
      exact List.mem_map_of_mem (select_mem hselection hcandidate)

theorem mem_buildCandidateChain {fallbackPolicy : FallbackPolicy} {modelAlias : String}
    (h : service.Evaluated request policy tr decision)
    (hmem : modelAlias ∈ buildCandidateChain decision fallbackPolicy) :
    modelAlias ∈ eligibleAliases decision := by
  rw [buildCandidateChain_eq] at hmem
  have hmem := List.mem_of_mem_take hmem
  rw [fallbackOrder, List.mem_eraseDups, List.mem_append] at hmem
  rcases hmem with hselected | hfallback
  · exact selected_eligible h (Option.mem_toList.mp hselected)
  · simpa using (List.mem_filter.mp hfallback).2

/-! ## The candidate that succeeded -/

/-- The decision with the data of the candidate that succeeded. -/
def succeededDecision (original : RoutingDecision) (candidate : RouteCandidate)
    (extraReasonCodes : List RoutingReasonCode) : RoutingDecision :=
  { original with
    selectedModelAlias := some candidate.modelAlias, provider := some candidate.provider
    fallbackUsed := decide (some candidate.modelAlias ≠ original.selectedModelAlias)
    reasonCodes := sortReasonCodes
      (original.reasonCodes.filter (· ≠ .noEligibleModel) ++ extraReasonCodes)
    estimatedUsage := some candidate.estimatedUsage, estimatedCost := some candidate.estimatedCost }

theorem aggregateDecision_some {modelAlias : String} (h : modelAlias ∈ eligibleAliases decision)
    (extraReasonCodes : List RoutingReasonCode) :
    ∃ candidate ∈ decision.consideredCandidates, candidate.modelAlias = modelAlias ∧
      aggregateDecision decision (some modelAlias) extraReasonCodes =
        .ok (succeededDecision decision candidate extraReasonCodes) := by
  obtain ⟨candidate, hcandidate, halias⟩ := List.mem_map.mp h
  have hmem := (List.mem_filter.mp hcandidate).1
  cases hfind : decision.consideredCandidates.find? (·.modelAlias = modelAlias) with
  | none => exact absurd halias (by simpa using List.find?_eq_none.mp hfind candidate hmem)
  | some found =>
      have hfound : found.modelAlias = modelAlias := by simpa using List.find?_some hfind
      refine ⟨found, List.mem_of_find?_eq_some hfind, hfound, ?_⟩
      subst hfound
      simp only [aggregateDecision, hfind]
      rfl

end InvocationOrchestrator

end ModelRouter
