import Mathlib.Data.List.Nodup
import Mathlib.Data.String.Basic
import ModelRouter.Domain.Vocabulary
import ModelRouter.Lib.Decimal

/-!
# Messages, usage, cost and the model catalogue

* `DefaultTokenEstimator`, `DefaultCostEstimator` : the heuristics of `domain/cost_estimation.py`;
* `ModelDefinition` : a catalogue entry; its fields carry what its validators check;
* `ModelCatalogue` : a catalogue with unique aliases and its index by capability
  (`mem_findByCapability`).

A definition leaves out the fields nothing here reads: the static `health`, `supported_modalities`,
`typical_latency`, `currency` and `pricing_version`.
-/

namespace ModelRouter
open Arith

/-- `Money`: a finite decimal. -/
abbrev Money : Type := Decimal

/-- The digits of the default decimal context. -/
def decimalPrecision : Nat := 28

/-- The greatest exponent of the default decimal context. -/
def decimalEmax : Int := 999999

structure Message where
  role : Role
  content : String
deriving DecidableEq, Repr

structure Usage where
  inputTokens : Nat
  outputTokens : Nat
deriving DecidableEq, Repr

/-- `is_estimate` is the constant `True`. -/
structure EstimatedCost where
  amountUsd : Money
deriving DecidableEq, Repr

@[ext] structure ModelCapabilities where
  capabilityTags : List String
  qualityTier : QualityTier
  maxInputTokens : Nat
  maxOutputTokens : Nat
  supportsToolUse : Bool := false
  supportsStructuredOutput : Bool := false
  supportsStreaming : Bool := false
  capabilityTags_ne : capabilityTags ≠ [] := by decide
  maxInputTokens_pos : 0 < maxInputTokens := by decide
  maxOutputTokens_pos : 0 < maxOutputTokens := by decide
deriving Repr

instance : DecidableEq ModelCapabilities := fun _ _ => decidable_of_iff' _ ModelCapabilities.ext_iff

structure ModelPricing where
  inputPricePer1kTokens : Money
  outputPricePer1kTokens : Money
deriving DecidableEq, Repr

structure ModelResolution where
  type : ModelResolutionType
  value : String
deriving DecidableEq, Repr

/-- `_BEDROCK_ONLY_RESOLUTION_TYPES`. -/
def bedrockOnlyResolutionTypes : List ModelResolutionType :=
  [.crossRegionInferenceProfile, .applicationInferenceProfile]

structure ModelDefinition where
  modelAlias : String
  provider : ProviderName
  region : String
  resolution : ModelResolution
  capabilities : ModelCapabilities
  pricing : ModelPricing
  resolution_matches_provider :
    provider = .bedrock ∨ resolution.type ∉ bedrockOnlyResolutionTypes := by decide
deriving DecidableEq, Repr

/-! ## Estimation -/

structure TokenEstimator where
  estimate : List Message → Nat → Usage

structure CostEstimator where
  estimate : Usage → ModelPricing → Except PyException EstimatedCost

/-- `sum(len(message.content) for message in messages)`. -/
def totalChars (messages : List Message) : Nat :=
  (messages.map fun message => message.content.length).sum

/-- `max(1, -(-total_chars // chars_per_token))` with `chars_per_token = 4`, and the requested
maximum. -/
def DefaultTokenEstimator : TokenEstimator where
  estimate messages maximumOutputTokens :=
    let totalChars := (messages.map fun message => message.content.length).sum
    { inputTokens := max 1 ((totalChars + 3) / 4), outputTokens := maximumOutputTokens }

/-- A result of the default decimal context, which traps `Overflow`. -/
def inContext (d : Decimal) : Except PyException Decimal :=
  if d.overflows decimalEmax then .error (.other "Overflow") else .ok d

/-- What some tokens cost. -/
def pricedTokens (tokens : Nat) (price : Money) : Except PyException Decimal := do
  let thousands ← inContext (Decimal.div decimalPrecision (.ofNat tokens) (.ofNat 1000))
  inContext (Decimal.mul decimalPrecision thousands price)

/-- The cost at six decimals; `quantize` raises on a total beyond the precision of the context. -/
def DefaultCostEstimator : CostEstimator where
  estimate usage pricing := do
    let inputCost ← pricedTokens usage.inputTokens pricing.inputPricePer1kTokens
    let outputCost ← pricedTokens usage.outputTokens pricing.outputPricePer1kTokens
    let sum ← inContext (Decimal.add decimalPrecision inputCost outputCost)
    match sum.quantize decimalPrecision (-6) with
    | some total => .ok { amountUsd := total }
    | none => .error .invalidOperation

/-! ## The catalogue -/

/-- A catalogue that has passed the check for duplicate aliases. -/
structure ModelCatalogue where
  catalogueVersion : Int := 1
  models : List ModelDefinition
  unique_aliases : (models.map (·.modelAlias)).Nodup := by decide

namespace ModelCatalogue

variable (catalogue : ModelCatalogue)

/-- The index entry of a capability: it is filled tag by tag, model by model. -/
def findByCapability (capability : String) : List ModelDefinition :=
  catalogue.models.flatMap fun model =>
    (model.capabilities.capabilityTags.filter (· = capability)).map fun _ => model

def getByAlias (modelAlias : String) : Option ModelDefinition :=
  catalogue.models.find? (·.modelAlias = modelAlias)

def allModels : List ModelDefinition := catalogue.models

variable {catalogue}

theorem mem_findByCapability {capability : String} {model : ModelDefinition} :
    model ∈ catalogue.findByCapability capability ↔
      model ∈ catalogue.models ∧ capability ∈ model.capabilities.capabilityTags := by
  simp only [findByCapability, List.mem_flatMap, List.mem_map, List.mem_filter, decide_eq_true_eq]
  constructor
  · rintro ⟨m, hm, tag, ⟨htag, rfl⟩, rfl⟩
    exact ⟨hm, htag⟩
  · rintro ⟨hm, htag⟩
    exact ⟨model, hm, capability, ⟨htag, rfl⟩, rfl⟩

/-- A model is determined by its alias. -/
theorem eq_of_alias {model model' : ModelDefinition} (h : model ∈ catalogue.models)
    (h' : model' ∈ catalogue.models) (halias : model.modelAlias = model'.modelAlias) :
      model = model' :=
  List.inj_on_of_nodup_map catalogue.unique_aliases h h' halias

end ModelCatalogue

end ModelRouter
