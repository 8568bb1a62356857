import ModelRouter.Domain.Invocation
import ModelRouter.Handlers.ErrorMapping
import ModelRouter.Lib.Calendar

/-!
# The bodies of responses

What the handlers put into a response, as the dictionaries that `json.dumps` writes.

* `serializeInferenceResult`, `serializeRouteEvaluation`, `serializeAuditRecord` : an outcome for
  its caller;
* `serializeModelsResponse` : the capabilities of a catalogue; it depends on nothing else than what
  the models offer for each capability, in any order (`serializeModelsResponse_congr`).
-/

namespace ModelRouter
open Arith Json

/-! ## Dictionaries -/

/-- A number of a body: an integer, or the `float` of a decimal. -/
inductive BodyNumber where
  | int (n : Int)
  | float (d : Decimal)

abbrev Body : Type := Value BodyNumber

namespace Body

def text (s : String) : Body := .string (.text s)

def nat (n : Nat) : Body := .number (.int n)

def optionalText : Option String → Body
  | some s => text s
  | none => .null

def texts (items : List String) : Body := .array (items.map text)

def dictionary (members : List (String × Body)) : Body :=
  Value.object (members.map fun member => (Str.text member.1, member.2))

/-- The entry of a dictionary. -/
def entry (key : String) : Body → Option Body
  | .object members => lookup key members
  | _ => none

end Body

open Body (text nat optionalText texts dictionary)

def ErrorBody.json (body : ErrorBody) : Body :=
  dictionary ([("requestId", text body.requestId), ("errorCode", text body.errorCode),
    ("message", text body.message)] ++
    match body.reasonCodes with
    | some reasonCodes => [("reasonCodes", texts reasonCodes)]
    | none => [])

/-! ## Decisions -/

def serializeRoute (decision : RoutingDecision) : Body := dictionary
  [("modelAlias", optionalText decision.selectedModelAlias),
   ("provider", optionalText (decision.provider.map (·.value))),
   ("fallbackUsed", .bool decision.fallbackUsed),
   ("reasonCodes", texts (decision.reasonCodes.map (·.value)))]

def serializeUsage (decision : RoutingDecision) : Body :=
  match decision.estimatedUsage, decision.estimatedCost with
  | some usage, some cost => dictionary
    [("inputTokens", nat usage.inputTokens), ("outputTokens", nat usage.outputTokens),
     ("estimatedCostUsd", .number (.float cost.amountUsd))]
  | _, _ => .null

def serializeConsideredCandidate (candidate : RouteCandidate) (selectedAlias : Option String) :
    Body := dictionary
  [("modelAlias", text candidate.modelAlias),
   ("selected", .bool (some candidate.modelAlias = selectedAlias)),
   ("estimatedCostUsd", .number (.float candidate.estimatedCost.amountUsd)),
   ("reasonCodes", texts (candidate.reasonCodes.map (·.value)))]

def serializeResponse : Option ProviderResponse → Body
  | some response => dictionary
    [("role", text response.message.role.value), ("content", text response.message.content)]
  | none => .null

def serializeInferenceResult (result : InferenceResult) (requestId : String) : Body := dictionary
  [("decisionId", text result.decision.decisionId),
   ("response", serializeResponse result.response),
   ("route", serializeRoute result.decision),
   ("usage", serializeUsage result.decision),
   ("requestId", text requestId)]

def serializeRouteEvaluation (decision : RoutingDecision) (requestId : String) : Body := dictionary
  [("decisionId", text decision.decisionId),
   ("route", serializeRoute decision),
   ("consideredCandidates", .array (decision.consideredCandidates.map fun candidate =>
      serializeConsideredCandidate candidate decision.selectedModelAlias)),
   ("usageEstimate", serializeUsage decision),
   ("requestId", text requestId)]

/-- `created_at.isoformat().replace("+00:00", "Z")`, of a time in UTC. -/
def createdAtText (createdAt : Nat) : String := String.ofList (Calendar.text createdAt ++ ['Z'])

def serializeAttempt (attempt : InvocationAttempt) : Body := dictionary
  [("modelAlias", text attempt.modelAlias), ("status", text attempt.status.value),
    ("latencyMs", nat attempt.latencyMs)]

def serializeAuditRecord (auditRecord : AuditRecord) (requestId : String) : Body := dictionary
  [("decisionId", text auditRecord.decision.decisionId),
   ("applicationId", text auditRecord.decision.applicationId),
   ("createdAt", text (createdAtText auditRecord.decision.createdAt)),
   ("policyId", text auditRecord.decision.policyId),
   ("policyVersion", nat auditRecord.decision.policyVersion),
   ("capability", text auditRecord.decision.capability),
   ("route", serializeRoute auditRecord.decision),
   ("usage", serializeUsage auditRecord.decision),
   ("invocationAttempts", .array (auditRecord.invocationAttempts.map serializeAttempt)),
   ("requestId", text requestId)]

/-! ## Models -/

/-- A model of the catalogue, with the latency that is configured for it. -/
structure ListedModel where
  definition : ModelDefinition
  typicalLatency : LatencyPreference := .balanced

/-- `_LATENCY_RANK` -/
def latencyRank : LatencyPreference → Nat
  | .low => 0
  | .balanced => 1
  | .high => 2

/-- The models that are filed under a tag, once for each time they carry it. -/
def capabilityGroup (models : List ListedModel) (tag : String) : List ListedModel :=
  models.flatMap fun model =>
    (model.definition.capabilities.capabilityTags.filter (· = tag)).map fun _ => model

/-- The first of the smallest rank; a capability has a model. -/
def bestLatency : List ListedModel → LatencyPreference
  | [] => .balanced
  | model :: models => models.foldl
    (fun best model => if latencyRank model.typicalLatency < latencyRank best
      then model.typicalLatency else best)
    model.typicalLatency

/-- The values of a set of quality tiers, sorted. -/
def sortedTiers (group : List ListedModel) : List String :=
  (group.map fun model => model.definition.capabilities.qualityTier.value).eraseDups.insertionSort
    (· ≤ ·)

def serializeCapability (tag : String) (group : List ListedModel) : Body := dictionary
  [("capability", text tag),
   ("qualityTiers", texts (sortedTiers group)),
   ("supportsToolUse", .bool (group.any fun model =>
     model.definition.capabilities.supportsToolUse)),
   ("supportsStructuredOutput",
     .bool (group.any fun model => model.definition.capabilities.supportsStructuredOutput)),
   ("typicalLatency", text (bestLatency group).value)]

/-- The tags of the catalogue, sorted. -/
def sortedTags (models : List ListedModel) : List String :=
  (models.flatMap fun model =>
    model.definition.capabilities.capabilityTags).eraseDups.insertionSort (· ≤ ·)

def serializeModelsResponse (models : List ListedModel) (requestId : String) : Body := dictionary
  [("capabilities", .array ((sortedTags models).map fun tag =>
    serializeCapability tag (capabilityGroup models tag))),
   ("requestId", text requestId)]

/-! ## What a catalogue shows -/

/-- What a model offers for one of its capabilities. -/
structure Offer where
  capability : String
  qualityTier : QualityTier
  supportsToolUse : Bool
  supportsStructuredOutput : Bool
  typicalLatency : LatencyPreference
deriving DecidableEq

def ListedModel.offer (model : ListedModel) (tag : String) : Offer where
  capability := tag
  qualityTier := model.definition.capabilities.qualityTier
  supportsToolUse := model.definition.capabilities.supportsToolUse
  supportsStructuredOutput := model.definition.capabilities.supportsStructuredOutput
  typicalLatency := model.typicalLatency

def offers (models : List ListedModel) : List Offer :=
  models.flatMap fun model => model.definition.capabilities.capabilityTags.map model.offer

theorem mem_offers {models : List ListedModel} {offer : Offer} : offer ∈ offers models ↔
    ∃ model ∈ models, ∃ tag ∈ model.definition.capabilities.capabilityTags,
      model.offer tag = offer := by
  simp [offers]

theorem mem_capabilityGroup {models : List ListedModel} {tag : String} {model : ListedModel} :
    model ∈ capabilityGroup models tag ↔ model ∈ models ∧
    tag ∈ model.definition.capabilities.capabilityTags := by
  simp [capabilityGroup]

/-- A sorted list of different texts depends on the set of the texts. -/
theorem sortedSet_congr {l l' : List String} (h : ∀ s, s ∈ l ↔ s ∈ l') :
    l.eraseDups.insertionSort (· ≤ ·) = l'.eraseDups.insertionSort (· ≤ ·) := by
  have hperm : l.eraseDups.Perm l'.eraseDups :=
    (List.perm_ext_iff_of_nodup (nodup_eraseDups l) (nodup_eraseDups l')).mpr (by simpa using h)
  have hsorted := (List.perm_insertionSort (· ≤ ·) l.eraseDups).trans
    (hperm.trans (List.perm_insertionSort (· ≤ ·) l'.eraseDups).symm)
  exact hsorted.eq_of_pairwise (fun _ _ _ _ => le_antisymm) (List.pairwise_insertionSort _ _)
    (List.pairwise_insertionSort _ _)

/-- The best latency is one of the group's, and none has a smaller rank. -/
theorem bestLatency_spec {group : List ListedModel} (hne : group ≠ []) :
    (∃ model ∈ group, model.typicalLatency = bestLatency group) ∧
      ∀ model ∈ group, latencyRank (bestLatency group) ≤ latencyRank model.typicalLatency := by
  have hfold : ∀ (models : List ListedModel) (best : LatencyPreference),
      let final := models.foldl (fun best model =>
        if latencyRank model.typicalLatency < latencyRank best then model.typicalLatency
          else best) best
      (final = best ∨ ∃ model ∈ models, model.typicalLatency = final) ∧
        latencyRank final ≤ latencyRank best ∧
        ∀ model ∈ models, latencyRank final ≤ latencyRank model.typicalLatency := by
    intro models
    induction models with
    | nil => intro best; simp
    | cons model models ih =>
        intro best
        obtain ⟨hmem, hbest, hall⟩ :=
          ih (if latencyRank model.typicalLatency < latencyRank best then model.typicalLatency
          else best)
        dsimp only at hmem hbest hall ⊢
        rw [List.foldl_cons]
        split at hmem <;> rename_i hrank
        · simp only [if_pos hrank] at hbest hall ⊢
          refine ⟨Or.inr ?_, by omega, ?_⟩
          · rcases hmem with hmem | ⟨model', hmodel', hmem⟩
            · exact ⟨model, List.mem_cons_self, hmem.symm⟩
            · exact ⟨model', List.mem_cons_of_mem _ hmodel', hmem⟩
          · intro model' hmodel'
            rcases List.mem_cons.mp hmodel' with rfl | hmodel'
            · exact hbest
            · exact hall model' hmodel'
        · simp only [if_neg hrank] at hbest hall ⊢
          refine ⟨?_, hbest, ?_⟩
          · rcases hmem with hmem | ⟨model', hmodel', hmem⟩
            · exact Or.inl hmem
            · exact Or.inr ⟨model', List.mem_cons_of_mem _ hmodel', hmem⟩
          · intro model' hmodel'
            rcases List.mem_cons.mp hmodel' with rfl | hmodel'
            · omega
            · exact hall model' hmodel'
  cases group with
  | nil => exact absurd rfl hne
  | cons model models =>
      obtain ⟨hmem, hbest, hall⟩ := hfold models model.typicalLatency
      refine ⟨?_, fun model' hmodel' => ?_⟩
      · rcases hmem with hmem | ⟨model', hmodel', hmem⟩
        · exact ⟨model, List.mem_cons_self, hmem.symm⟩
        · exact ⟨model', List.mem_cons_of_mem _ hmodel', hmem⟩
      · rcases List.mem_cons.mp hmodel' with rfl | hmodel'
        · exact hbest
        · exact hall model' hmodel'

theorem latencyRank_injective : Function.Injective latencyRank := by
  intro a b h
  cases a <;> cases b <;> first | rfl | cases h

section
variable {models models' : List ListedModel} (h : ∀ offer ∈ offers models, offer ∈ offers models')
include h

/-- A model of a group has one in the other group that offers the same. -/
theorem exists_offering {tag : String} {model : ListedModel}
    (hmodel : model ∈ capabilityGroup models tag) :
    ∃ model' ∈ capabilityGroup models' tag, model'.offer tag = model.offer tag := by
  obtain ⟨hmem, htag⟩ := mem_capabilityGroup.mp hmodel
  obtain ⟨model', hmem', tag', htag', hoffer⟩ :=
    mem_offers.mp (h (model.offer tag) (mem_offers.mpr ⟨model, hmem, tag, htag, rfl⟩))
  obtain rfl : tag' = tag := congrArg Offer.capability hoffer
  exact ⟨model', mem_capabilityGroup.mpr ⟨hmem', htag'⟩, hoffer⟩

theorem tag_offered {tag : String}
    (htag : tag ∈ models.flatMap fun model => model.definition.capabilities.capabilityTags) :
    tag ∈ models'.flatMap fun model => model.definition.capabilities.capabilityTags := by
  obtain ⟨model, hmodel, htag⟩ := List.mem_flatMap.mp htag
  obtain ⟨model', hmodel', -⟩ := exists_offering h (mem_capabilityGroup.mpr ⟨hmodel, htag⟩)
  obtain ⟨hmem', htag'⟩ := mem_capabilityGroup.mp hmodel'
  exact List.mem_flatMap.mpr ⟨model', hmem', htag'⟩

theorem tier_offered {tag tier : String}
    (htier : tier ∈ (capabilityGroup models tag).map fun model =>
      model.definition.capabilities.qualityTier.value) :
    tier ∈ (capabilityGroup models' tag).map fun model =>
      model.definition.capabilities.qualityTier.value := by
  obtain ⟨model, hmodel, rfl⟩ := List.mem_map.mp htier
  obtain ⟨model', hmodel', hoffer⟩ := exists_offering h hmodel
  exact List.mem_map.mpr ⟨model', hmodel', congrArg (fun offer => offer.qualityTier.value) hoffer⟩

theorem any_offered {tag : String} (feature : Offer → Bool)
    (hany : (capabilityGroup models tag).any (fun model => feature (model.offer tag)) = true) :
    (capabilityGroup models' tag).any (fun model => feature (model.offer tag)) = true := by
  obtain ⟨model, hmodel, hfeature⟩ := List.any_eq_true.mp hany
  obtain ⟨model', hmodel', hoffer⟩ := exists_offering h hmodel
  exact List.any_eq_true.mpr ⟨model', hmodel', by rw [hoffer]; exact hfeature⟩

theorem latency_offered {tag : String} (hne : capabilityGroup models tag ≠ []) :
    capabilityGroup models' tag ≠ [] ∧
      latencyRank (bestLatency (capabilityGroup models' tag)) ≤
        latencyRank (bestLatency (capabilityGroup models tag)) := by
  obtain ⟨⟨model, hmodel, hbest⟩, -⟩ := bestLatency_spec hne
  obtain ⟨model', hmodel', hoffer⟩ := exists_offering h hmodel
  have hne' : capabilityGroup models' tag ≠ [] := List.ne_nil_of_mem hmodel'
  refine ⟨hne', ?_⟩
  have hlatency : model'.typicalLatency = model.typicalLatency :=
    congrArg Offer.typicalLatency hoffer
  rw [← hbest, ← hlatency]
  exact (bestLatency_spec hne').2 model' hmodel'

end

/-- **The response lists what is offered for each capability, and shows nothing else of the
models**: neither their aliases, prices and resolutions nor their number and order. -/
theorem serializeModelsResponse_congr (models models' : List ListedModel) (requestId : String)
    (h : ∀ offer, offer ∈ offers models ↔ offer ∈ offers models') :
    serializeModelsResponse models requestId = serializeModelsResponse models' requestId := by
  have hto := fun offer => (h offer).mp
  have hback := fun offer => (h offer).mpr
  have htags : sortedTags models = sortedTags models' :=
    sortedSet_congr fun tag => ⟨tag_offered hto, tag_offered hback⟩
  have hany : ∀ (feature : Offer → Bool) tag,
      (capabilityGroup models tag).any (fun model => feature (model.offer tag)) =
        (capabilityGroup models' tag).any (fun model => feature (model.offer tag)) :=
    fun feature tag => Bool.eq_iff_iff.mpr ⟨any_offered hto feature, any_offered hback feature⟩
  have hlatency : ∀ tag, bestLatency (capabilityGroup models tag) =
      bestLatency (capabilityGroup models' tag) := by
    intro tag
    by_cases hne : capabilityGroup models tag = []
    · have hne' : capabilityGroup models' tag = [] := by
        by_contra hne'
        exact (latency_offered hback hne').1 hne
      rw [hne, hne']
    · obtain ⟨hne', hle⟩ := latency_offered hto hne
      exact latencyRank_injective (le_antisymm (latency_offered hback hne').2 hle)
  have hcapability : ∀ tag, serializeCapability tag (capabilityGroup models tag) =
      serializeCapability tag (capabilityGroup models' tag) := by
    intro tag
    have htiers : sortedTiers (capabilityGroup models tag) =
        sortedTiers (capabilityGroup models' tag) :=
      sortedSet_congr fun tier => ⟨tier_offered hto, tier_offered hback⟩
    have htools := hany Offer.supportsToolUse tag
    have hstructured := hany Offer.supportsStructuredOutput tag
    dsimp only [ListedModel.offer] at htools hstructured
    rw [serializeCapability, serializeCapability, htiers, htools, hstructured, hlatency]
  rw [serializeModelsResponse, serializeModelsResponse, htags, funext hcapability]

namespace Scenario

/-- Two models, and one with another alias and price that offers the same. -/
theorem prices_hidden :
    serializeModelsResponse [{ definition := model "primary" 3 },
      { definition := model "cheap" 1 }] "req" =
      serializeModelsResponse [{ definition := model "other" 7 }] "req" := by
  have hto : ∀ offer ∈ offers [{ definition := model "primary" 3 },
      { definition := model "cheap" 1 }],
      offer ∈ offers [{ definition := model "other" 7 }] := by decide +kernel
  have hback : ∀ offer ∈ offers [{ definition := model "other" 7 }],
      offer ∈ offers [{ definition := model "primary" 3 }, { definition := model "cheap" 1 }] := by
        decide +kernel
  exact serializeModelsResponse_congr _ _ "req" fun offer => ⟨hto offer, hback offer⟩

end Scenario

end ModelRouter
