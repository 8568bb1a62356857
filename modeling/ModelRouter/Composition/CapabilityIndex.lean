import Mathlib.Data.List.Nodup
import Mathlib.Logic.Function.Basic
import ModelRouter.Adapters.LocalModelCatalogue
import ModelRouter.Application.RouteEvaluation

/-!
# The index by capability

A capability that an entry lists twice indexes the entry twice.

* `capabilityIndex` : the index as it is filled, tag by tag, which `findByCapability` reads
  (`findByCapability_index`);
* `InMemoryModelCatalogue.findByCapability` : the entries that list a capability;
* `capability_index_iff` : the two agree, and a decision considers no entry twice, exactly where no
  entry of an accepted catalogue lists the capability twice.
-/

namespace ModelRouter
open Effects Prog Posix

/-! ## The index -/

/-- `self._models_by_capability`, after a loop over the models and one over the tags of each. -/
def capabilityIndex (models : List ModelDefinition) : String → List ModelDefinition :=
  models.foldl (fun index model => model.capabilities.capabilityTags.foldl (fun index tag =>
    Function.update index tag (index tag ++ [model])) index) fun _ => []

/-- The lookup of the catalogue that the tests use. -/
def InMemoryModelCatalogue.findByCapability (models : List ModelDefinition) (capability : String) :
    List ModelDefinition :=
  models.filter fun model => capability ∈ model.capabilities.capabilityTags

variable {capability : String} {models : List ModelDefinition}

theorem foldl_tags (model : ModelDefinition) (tags : List String)
    (index : String → List ModelDefinition) :
    tags.foldl (fun index tag => Function.update index tag (index tag ++ [model])) index
      capability =
      index capability ++ List.replicate (tags.count capability) model := by
  induction tags generalizing index with
  | nil => simp
  | cons tag tags ih =>
      rw [List.foldl_cons, ih]
      by_cases htag : capability = tag
      · rw [htag, Function.update_self, List.count_cons_self, List.append_assoc,
          List.singleton_append,
          ← List.replicate_succ]
      · rw [Function.update_of_ne htag, List.count_cons_of_ne (Ne.symm htag)]

theorem foldl_models (index : String → List ModelDefinition) :
    models.foldl (fun index model => model.capabilities.capabilityTags.foldl (fun index tag =>
        Function.update index tag (index tag ++ [model])) index) index capability =
      index capability ++
        models.flatMap fun model =>
          List.replicate (model.capabilities.capabilityTags.count capability) model := by
  induction models generalizing index with
  | nil => simp
  | cons model models ih =>
      rw [List.foldl_cons, ih, foldl_tags, List.flatMap_cons, List.append_assoc]

section Catalogue
variable {catalogue : ModelCatalogue}

theorem findByCapability_replicate : catalogue.findByCapability capability =
    catalogue.models.flatMap fun model =>
      List.replicate (model.capabilities.capabilityTags.count capability) model := by
  unfold ModelCatalogue.findByCapability
  refine List.flatMap_congr fun model _ => ?_
  rw [List.map_const', ← List.countP_eq_length_filter, List.count]
  congr 2

/-- **What is found is the index**, as the loops fill it. -/
theorem findByCapability_index :
    catalogue.findByCapability capability = capabilityIndex catalogue.models capability := by
  rw [findByCapability_replicate, capabilityIndex, foldl_models, List.nil_append]

theorem replicate_eq_filter
    (h : ∀ model ∈ models, model.capabilities.capabilityTags.count capability ≤ 1) :
    (models.flatMap fun model =>
      List.replicate (model.capabilities.capabilityTags.count capability) model) =
      InMemoryModelCatalogue.findByCapability models capability := by
  unfold InMemoryModelCatalogue.findByCapability
  induction models with
  | nil => rfl
  | cons model models ih =>
      obtain ⟨hmodel, hmodels⟩ := List.forall_mem_cons.mp h
      rw [List.flatMap_cons, List.filter_cons, ih hmodels]
      by_cases htag : capability ∈ model.capabilities.capabilityTags
      · have hone : model.capabilities.capabilityTags.count capability = 1 := by
          have := List.count_pos_iff.mpr htag
          omega
        rw [hone, if_pos (decide_eq_true htag), List.replicate_one, List.singleton_append]
      · rw [List.count_eq_zero_of_not_mem htag, if_neg (by simpa using htag), List.replicate_zero,
          List.nil_append]

theorem count_of_nodup {model : ModelDefinition} (hmodel : model ∈ catalogue.models)
    (h : ((catalogue.findByCapability capability).map (·.modelAlias)).Nodup) :
    model.capabilities.capabilityTags.count capability ≤ 1 := by
  have hfound := h.of_map
  rw [findByCapability_replicate] at hfound
  exact List.nodup_replicate.mp ((List.nodup_flatMap.mp hfound).1 model hmodel)

theorem filter_nodup :
    ((InMemoryModelCatalogue.findByCapability catalogue.models capability).map
      (·.modelAlias)).Nodup :=
  catalogue.unique_aliases.sublist (List.filter_sublist.map _)

/-- The entries are found once each, and the lookups agree, if no entry lists the capability
twice. -/
theorem found_iff : (catalogue.findByCapability capability =
      InMemoryModelCatalogue.findByCapability catalogue.models capability ↔
        ∀ model ∈ catalogue.models, model.capabilities.capabilityTags.count capability ≤ 1) ∧
    (((catalogue.findByCapability capability).map (·.modelAlias)).Nodup ↔
      ∀ model ∈ catalogue.models, model.capabilities.capabilityTags.count capability ≤ 1) := by
  have hagree : (∀ model ∈ catalogue.models,
      model.capabilities.capabilityTags.count capability ≤ 1) →
      catalogue.findByCapability capability =
        InMemoryModelCatalogue.findByCapability catalogue.models capability :=
    fun h => findByCapability_replicate.trans (replicate_eq_filter h)
  refine ⟨⟨fun h model hmodel => count_of_nodup hmodel ?_, hagree⟩, fun h model hmodel =>
    count_of_nodup hmodel h,
    fun h => ?_⟩
  · rw [h]
    exact filter_nodup
  · rw [hagree h]
    exact filter_nodup

end Catalogue

/-! ## Considered candidates -/

section Decisions
variable {service : RouteEvaluationService} {request : InferenceRequest} {policy : RoutingPolicy}
  {tr : List (Event Ports)} {decision : RoutingDecision}

theorem candidates_aliases {requirements : EffectiveRoutingRequirements} {messages : List Message}
    {candidates : List RouteCandidate}
    (h : List.Forall₂ (service.CandidateOf requirements policy messages tr) models candidates) :
    candidates.map (·.modelAlias) = models.map (·.modelAlias) := by
  induction h with
  | nil => rfl
  | cons hcandidate _ ih =>
      obtain ⟨status, -, hevaluated⟩ := hcandidate
      rw [List.map_cons, List.map_cons, ih, (evaluateCandidate_ok hevaluated).1]

theorem considered_iff (h : service.Evaluated request policy tr decision) :
    (decision.consideredCandidates.map (·.modelAlias)).Nodup ↔
      request.requirements.capability ∉ policy.allowedCapabilities ∨
        ∀ model ∈ service.modelCatalogue.models,
          model.capabilities.capabilityTags.count request.requirements.capability ≤ 1 := by
  cases h with
  | unavailable decisionId createdAt hnone =>
      refine iff_of_true List.nodup_nil (hnone.imp_right fun hempty => ?_)
      apply found_iff.2.mp
      show ((service.requestedModels request).map (·.modelAlias)).Nodup
      rw [hempty]
      exact List.nodup_nil
  | considered decisionId createdAt candidates selection hallowed hcandidates hselection =>
      show (candidates.map (·.modelAlias)).Nodup ↔ _
      rw [candidates_aliases hcandidates, or_iff_right (not_not_intro hallowed)]
      exact found_iff.2

end Decisions

/-! ## Accepted catalogues -/

/-- **The index by capability.** In an accepted catalogue, the entries found for a capability are
those that list it, in order, exactly where no entry lists it twice, and each is found once exactly
there; a decision over the catalogue considers no entry twice exactly where the policy does not
allow the capability, or no entry lists it twice. -/
theorem capability_index_iff {repr : String → String} {cataloguePath : Path}
    {catalogueVersion : Int}
    {models : List ModelDefinition} {catalogue : LocalFileModelCatalogue}
    (h : LocalFileModelCatalogue.ofModels repr cataloguePath catalogueVersion models =
      .ok catalogue) :
    (∀ capability,
      (catalogue.findByCapability capability =
        InMemoryModelCatalogue.findByCapability catalogue.allModels capability ↔
        ∀ model ∈ models, model.capabilities.capabilityTags.count capability ≤ 1) ∧
      (((catalogue.findByCapability capability).map (·.modelAlias)).Nodup ↔
        ∀ model ∈ models, model.capabilities.capabilityTags.count capability ≤ 1)) ∧
    ∀ (service : RouteEvaluationService) (request : InferenceRequest) (tr : List (Event Ports))
    (decision : RoutingDecision),
      service.modelCatalogue = catalogue.toModelCatalogue →
      Run (service.evaluate request) tr (.ok decision) →
      ∃ policy, (⟨.resolve request.applicationId, .ok policy⟩ : Event Ports) ∈ tr ∧
        ((decision.consideredCandidates.map (·.modelAlias)).Nodup ↔
          request.requirements.capability ∉ policy.allowedCapabilities ∨
            ∀ model ∈ models, model.capabilities.capabilityTags.count
              request.requirements.capability ≤ 1) := by
  obtain rfl := LocalFileModelCatalogue.ofModels_models h
  refine ⟨fun capability => found_iff, fun service request tr decision hservice hrun => ?_⟩
  obtain ⟨policy, hresolve, hevaluated⟩ := RouteEvaluationService.run_evaluate hrun
  refine ⟨policy, hresolve, ?_⟩
  rw [considered_iff hevaluated, hservice]

namespace Scenario

theorem routed_found : ∃ catalogue,
    LocalFileModelCatalogue.ofModels id catalogueFile 1 routed = .ok catalogue ∧
    catalogue.findByCapability "text" =
      InMemoryModelCatalogue.findByCapability catalogue.allModels "text" :=
  ⟨_, rfl, ((@capability_index_iff id catalogueFile 1 routed _ rfl).1 "text").1.mpr (by decide)⟩

/-- An entry that lists its capability twice. -/
def repeated : ModelDefinition :=
  { entry "claude" .directModelId "anthropic.claude" with
    capabilities :=
      { (entry "claude" .directModelId "anthropic.claude").capabilities with
        capabilityTags := ["text", "text"], capabilityTags_ne := List.cons_ne_nil _ _ } }

/-- It is accepted, and found twice. -/
theorem repeated_found :
    ∃ catalogue, LocalFileModelCatalogue.ofModels id catalogueFile 1 [repeated] = .ok catalogue ∧
    catalogue.findByCapability "text" = [repeated, repeated] ∧
    catalogue.findByCapability "text" ≠
      InMemoryModelCatalogue.findByCapability catalogue.allModels "text" ∧
    ¬ ((catalogue.findByCapability "text").map (·.modelAlias)).Nodup :=
  ⟨_, rfl, by decide, by decide, by decide⟩

end Scenario

end ModelRouter
