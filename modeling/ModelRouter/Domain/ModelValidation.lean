import ModelRouter.Domain.DynamicValues
import ModelRouter.Domain.Policy

/-!
# Validation of configuration

`model_validate` of a catalogue entry and of a routing policy, from the plain data of a file. Every
model forbids fields that it does not have.

* `ModelDefinition.modelValidate` : an entry of the catalogue; a validated entry has the provider
  and the resolution that its data says (`ModelDefinition.modelValidate_read`);
* `RoutingPolicy.modelValidate` : a policy, which must be consistent.
-/

namespace ModelRouter
open Json

namespace Pydantic

/-! ## Fields -/

/-- `tuple[T, ...]`. -/
def tuple {α : Type} (read : PyValue → Option α) : PyValue → Option (List α)
  | .array items => items.mapM read
  | _ => none

/-- A field of a `StrEnum`. -/
def enum {α : Type} (members : List (String × α)) : PyValue → Option α
  | .string (.text s) => (members.find? (·.1 = s)).map (·.2)
  | _ => none

/-- The data of a model: a dictionary with no other keys. -/
def fields (names : List String) : PyValue → Option (List (Str × PyValue))
  | .object members =>
      if members.all fun member => names.any fun name => member.1 = .text name
        then some members else none
  | _ => none

variable {α : Type} (members : List (Str × PyValue)) (name : String)

def required (read : PyValue → Option α) : Option α := (lookup name members).bind read

/-- A field with a default, which is not validated. -/
def defaulted (default : α) (read : PyValue → Option α) : Option α :=
  match lookup name members with
  | none => some default
  | some value => read value

/-- A field that is a model, and whose default is the one of an empty mapping. -/
def nested (read : PyValue → Option α) : Option α := read ((lookup name members).getD (.object []))

end Pydantic

open Pydantic

/-! ## The members of the enumerations -/

def providerNames : List (String × ProviderName) := [("bedrock", .bedrock), ("openai", .openai)]

def modelResolutionTypes : List (String × ModelResolutionType) :=
  [("direct_model_id", .directModelId),
    ("cross_region_inference_profile", .crossRegionInferenceProfile),
    ("application_inference_profile", .applicationInferenceProfile), ("router_alias", .routerAlias)]

def modelHealthStatuses : List (String × ModelHealthStatus) :=
  [("healthy", .healthy), ("degraded", .degraded), ("unavailable", .unavailable)]

def routingStrategyTypes : List (String × RoutingStrategyType) :=
  [("preferred_model", .preferredModel), ("lowest_cost", .lowestCost),
    ("quality_tier", .qualityTier),
    ("experiment", .experiment)]

def subjectKeySources : List (String × ExperimentSubjectKeySource) :=
  [("application_id", .applicationId), ("conversation_id", .conversationId),
    ("application_and_conversation", .applicationAndConversation)]

variable (pydantic : Pydantic)

/-! ## The catalogue -/

def ModelResolution.modelValidate (value : PyValue) : Option ModelResolution := do
  let members ← fields ["type", "value"] value
  let type ← required members "type" (enum modelResolutionTypes)
  let value ← required members "value" str
  pure { type, value }

def ModelCapabilities.modelValidate (value : PyValue) : Option ModelCapabilities := do
  let members ← fields ["capability_tags", "quality_tier", "max_input_tokens", "max_output_tokens",
    "supports_tool_use",
    "supports_structured_output", "supports_streaming", "supported_modalities",
      "typical_latency"] value
  let capabilityTags ← required members "capability_tags" (tuple str)
  let qualityTier ← required members "quality_tier" (enum qualityTiers)
  let maxInputTokens ← required members "max_input_tokens" pydantic.positiveInt
  let maxOutputTokens ← required members "max_output_tokens" pydantic.positiveInt
  let supportsToolUse ← defaulted members "supports_tool_use" false pydantic.bool
  let supportsStructuredOutput ← defaulted members "supports_structured_output" false pydantic.bool
  let supportsStreaming ← defaulted members "supports_streaming" false pydantic.bool
  let _ ← defaulted members "supported_modalities" ["text"] (tuple str)
  let _ ← defaulted members "typical_latency" .balanced (enum latencyPreferences)
  if h : capabilityTags ≠ [] ∧ 0 < maxInputTokens ∧ 0 < maxOutputTokens then
    some { capabilityTags, qualityTier, maxInputTokens, maxOutputTokens, supportsToolUse, supportsStructuredOutput
           supportsStreaming, capabilityTags_ne := h.1, maxInputTokens_pos := h.2.1, maxOutputTokens_pos := h.2.2 }
  else none

def ModelPricing.modelValidate (value : PyValue) : Option ModelPricing := do
  let members ← fields ["currency", "input_price_per_1k_tokens", "output_price_per_1k_tokens",
    "pricing_version"] value
  let _ ← defaulted members "currency" "USD" str
  let inputPricePer1kTokens ← required members "input_price_per_1k_tokens" pydantic.money
  let outputPricePer1kTokens ← required members "output_price_per_1k_tokens" pydantic.money
  let _ ← required members "pricing_version" pydantic.positiveInt
  pure { inputPricePer1kTokens, outputPricePer1kTokens }

/-- The model `ModelHealth`, whose status nothing here reads. -/
def validateHealth (value : PyValue) : Option ModelHealthStatus := do
  let members ← fields ["status"] value
  defaulted members "status" .healthy (enum modelHealthStatuses)

/-- The model of a catalogue entry, with the check of `_validate_resolution_matches_provider`. -/
def ModelDefinition.modelValidate (value : PyValue) : Option ModelDefinition := do
  let members ← fields ["model_alias", "provider", "region", "resolution", "capabilities", "pricing", "health"] value
  let modelAlias ← required members "model_alias" str
  let provider ← required members "provider" (enum providerNames)
  let region ← required members "region" str
  let resolution ← required members "resolution" ModelResolution.modelValidate
  let capabilities ← required members "capabilities" (ModelCapabilities.modelValidate pydantic)
  let pricing ← required members "pricing" (ModelPricing.modelValidate pydantic)
  let _ ← defaulted members "health" .healthy validateHealth
  if h : provider = .bedrock ∨ resolution.type ∉ bedrockOnlyResolutionTypes then
    some { modelAlias, provider, region, resolution, capabilities, pricing, resolution_matches_provider := h }
  else none

/-! ## Policies -/

def IdempotencyPolicy.modelValidate (value : PyValue) : Option IdempotencyPolicy := do
  let members ← fields ["allow_response_caching", "retention_seconds"] value
  let allowResponseCaching ← defaulted members "allow_response_caching" false pydantic.bool
  let retentionSeconds ← defaulted members "retention_seconds" 300 pydantic.positiveInt
  if h : 0 < retentionSeconds
    then some { allowResponseCaching, retentionSeconds, retentionSeconds_pos := h } else none

def ClientOverridePermissions.modelValidate (value : PyValue) : Option ClientOverridePermissions :=
  do
  let members ← fields ["quality_tier", "maximum_estimated_cost_usd", "maximum_output_tokens",
    "latency_preference"] value
  let qualityTier ← defaulted members "quality_tier" false pydantic.bool
  let maximumEstimatedCostUsd ← defaulted members "maximum_estimated_cost_usd" false pydantic.bool
  let maximumOutputTokens ← defaulted members "maximum_output_tokens" false pydantic.bool
  let latencyPreference ← defaulted members "latency_preference" false pydantic.bool
  pure { qualityTier, maximumEstimatedCostUsd, maximumOutputTokens, latencyPreference }

def FallbackPolicy.modelValidate (value : PyValue) : Option FallbackPolicy := do
  let members ← fields ["fallback_model_aliases", "maximum_attempts"] value
  let fallbackModelAliases ← defaulted members "fallback_model_aliases" [] (tuple str)
  let maximumAttempts ← defaulted members "maximum_attempts" 1 pydantic.positiveInt
  if h : 1 ≤ maximumAttempts
    then some { fallbackModelAliases, maximumAttempts, maximumAttempts_pos := h } else none

def ExperimentArm.modelValidate (value : PyValue) : Option ExperimentArm := do
  let members ← fields ["model_alias", "weight"] value
  let modelAlias ← required members "model_alias" str
  let weight ← required members "weight" pydantic.positiveInt
  if h : 0 < weight then some { modelAlias, weight, weight_pos := h } else none

def ExperimentPolicy.modelValidate (value : PyValue) : Option ExperimentPolicy := do
  let members ← fields ["experiment_id", "arms", "subject_key_source"] value
  let experimentId ← required members "experiment_id" str
  let arms ← required members "arms" (tuple (ExperimentArm.modelValidate pydantic))
  let subjectKeySource ← defaulted members "subject_key_source" .applicationAndConversation
    (enum subjectKeySources)
  if h : 2 ≤ arms.length ∧ (arms.map (·.modelAlias)).Nodup then
    some { experimentId, arms, subjectKeySource, two_arms := h.1, unique_arms := h.2 }
  else none

/-- The fields of a policy, before `_validate_consistency`. -/
def RoutingPolicyFields.modelValidate (value : PyValue) : Option RoutingPolicyFields := do
  let members ← fields ["policy_id", "policy_version", "is_default", "allowed_capabilities",
    "allowed_model_aliases",
    "allowed_quality_tiers", "default_quality_tier", "maximum_estimated_cost_usd",
      "maximum_output_tokens",
    "routing_strategy", "preferred_model_alias", "latency_preference", "allow_client_overrides",
      "fallback_policy",
    "experiment_policy", "idempotency_policy"] value
  let policyId ← required members "policy_id" str
  let policyVersion ← required members "policy_version" pydantic.positiveInt
  let _ ← defaulted members "is_default" false pydantic.bool
  let allowedCapabilities ← required members "allowed_capabilities" (tuple str)
  let allowedModelAliases ← required members "allowed_model_aliases" (tuple str)
  let allowedQualityTiers ← required members "allowed_quality_tiers" (tuple (enum qualityTiers))
  let defaultQualityTier ← required members "default_quality_tier" (enum qualityTiers)
  let maximumEstimatedCostUsd ← required members "maximum_estimated_cost_usd" pydantic.money
  let maximumOutputTokens ← required members "maximum_output_tokens" pydantic.positiveInt
  let routingStrategy ← required members "routing_strategy" (enum routingStrategyTypes)
  let preferredModelAlias ← defaulted members "preferred_model_alias" none (optional str)
  let latencyPreference ← defaulted members "latency_preference" .balanced (enum latencyPreferences)
  let allowClientOverrides ← nested members "allow_client_overrides"
    (ClientOverridePermissions.modelValidate pydantic)
  let fallbackPolicy ← nested members "fallback_policy" (FallbackPolicy.modelValidate pydantic)
  let experimentPolicy ← defaulted members "experiment_policy" none
    (optional (ExperimentPolicy.modelValidate pydantic))
  let idempotencyPolicy ← nested members "idempotency_policy"
    (IdempotencyPolicy.modelValidate pydantic)
  if h : 0 < policyVersion ∧ allowedCapabilities ≠ [] ∧ allowedModelAliases ≠ [] ∧ allowedQualityTiers ≠ [] ∧
      0 < maximumOutputTokens then
    some { policyId, policyVersion, allowedCapabilities, allowedModelAliases, allowedQualityTiers, defaultQualityTier
           maximumEstimatedCostUsd, maximumOutputTokens, routingStrategy, preferredModelAlias, latencyPreference
           allowClientOverrides, fallbackPolicy, experimentPolicy, idempotencyPolicy, policyVersion_pos := h.1
           allowedCapabilities_ne := h.2.1, allowedModelAliases_ne := h.2.2.1, allowedQualityTiers_ne := h.2.2.2.1
           maximumOutputTokens_pos := h.2.2.2.2 }
  else none

def RoutingPolicy.modelValidate (value : PyValue) : Option RoutingPolicy := do
  let fields ← RoutingPolicyFields.modelValidate pydantic value
  if h : validateConsistency fields = none then some { toRoutingPolicyFields := fields, consistent := h } else none

/-! ## What a validated entry says -/

variable {pydantic} {value : PyValue}

theorem enum_eq_some {α : Type} {members : List (String × α)} {a : α} (h : enum members value = some a) :
    ∃ name, (name, a) ∈ members ∧ value = .string (.text name) := by
  unfold enum at h
  split at h
  · obtain ⟨member, hfind, rfl⟩ := Option.map_eq_some_iff.mp h
    have hname := List.find?_some hfind
    simp only [decide_eq_true_eq] at hname
    exact ⟨member.1, List.mem_of_find?_eq_some hfind, by rw [hname]⟩
  · simp at h

theorem fields_eq_some {names : List String} {members : List (Str × PyValue)}
    (h : fields names value = some members) :
    value = .object members := by
  unfold fields at h
  split at h
  · split at h
    · rw [Option.some.inj h]
    · simp at h
  · simp at h

theorem required_eq_some {α : Type} {members : List (Str × PyValue)} {name : String}
    {read : PyValue → Option α} {a : α}
    (h : required members name read = some a) : ∃ field, lookup name members = some field ∧
      read field = some a :=
  Option.bind_eq_some_iff.mp h

theorem providerNames_value {name : String} {provider : ProviderName}
    (h : (name, provider) ∈ providerNames) :
    name = provider.value := by
  simp only [providerNames, List.mem_cons, Prod.mk.injEq, List.not_mem_nil, or_false] at h
  rcases h with ⟨rfl, rfl⟩ | ⟨rfl, rfl⟩ <;> rfl

theorem modelResolutionTypes_value {name : String} {type : ModelResolutionType}
    (h : (name, type) ∈ modelResolutionTypes) :
    name = type.value := by
  simp only [modelResolutionTypes, List.mem_cons, Prod.mk.injEq, List.not_mem_nil, or_false] at h
  rcases h with ⟨rfl, rfl⟩ | ⟨rfl, rfl⟩ | ⟨rfl, rfl⟩ | ⟨rfl, rfl⟩ <;> rfl

theorem ModelResolution.modelValidate_read {resolution : ModelResolution}
    (h : ModelResolution.modelValidate value = some resolution) :
      ∃ members, value = .object members ∧
      lookup "type" members = some (.string (.text resolution.type.value)) ∧
      lookup "value" members = some (.string (.text resolution.value)) := by
  simp only [modelValidate, Option.bind_eq_bind, Option.bind_eq_some_iff] at h
  obtain ⟨members, hmembers, type, htype, target, htarget, hresolution⟩ := h
  obtain ⟨rawType, hlookupType, htype⟩ := required_eq_some htype
  obtain ⟨rawTarget, hlookupTarget, htarget⟩ := required_eq_some htarget
  obtain ⟨name, hname, rfl⟩ := enum_eq_some htype
  obtain rfl := Option.some.inj hresolution
  refine ⟨members, fields_eq_some hmembers, ?_, ?_⟩
  · rw [hlookupType, modelResolutionTypes_value hname]
  · rw [hlookupTarget, str_eq_some_iff.mp htarget]

/-- **A validated entry is what its data says.** -/
theorem ModelDefinition.modelValidate_read {model : ModelDefinition}
    (h : ModelDefinition.modelValidate pydantic value = some model) : ∃ members resolution, value = .object members ∧
      lookup "provider" members = some (.string (.text model.provider.value)) ∧
      lookup "resolution" members = some (.object resolution) ∧
      lookup "type" resolution = some (.string (.text model.resolution.type.value)) ∧
      lookup "value" resolution = some (.string (.text model.resolution.value)) := by
  simp only [modelValidate, Option.bind_eq_bind, Option.bind_eq_some_iff] at h
  obtain ⟨members, hmembers, modelAlias, -, provider, hprovider, region, -, resolution, hresolution, capabilities, -,
    pricing, -, status, -, hmodel⟩ := h
  obtain ⟨rawProvider, hlookupProvider, hprovider⟩ := required_eq_some hprovider
  obtain ⟨rawResolution, hlookupResolution, hresolution⟩ := required_eq_some hresolution
  obtain ⟨name, hname, rfl⟩ := enum_eq_some hprovider
  obtain ⟨rawMembers, rfl, htype, htarget⟩ := ModelResolution.modelValidate_read hresolution
  split at hmodel
  · obtain rfl := Option.some.inj hmodel
    refine ⟨members, rawMembers, fields_eq_some hmembers, ?_, hlookupResolution, htype, htarget⟩
    rw [hlookupProvider, providerNames_value hname]
  · simp at hmodel

end ModelRouter
