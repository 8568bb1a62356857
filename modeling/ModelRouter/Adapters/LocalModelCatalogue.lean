import ModelRouter.Adapters.Common
import ModelRouter.Adapters.Loader
import ModelRouter.Domain.ModelValidation

/-!
# A catalogue in a file

* `LocalFileModelCatalogue.ofModels` : the checks that a list of entries has to pass: unique
  aliases, and router aliases that do not target an entry of another provider;
* `CatalogueFiles.loadModelCatalogue` : the catalogue of a file;
* `ModelCatalogue.reached` : the entry that a router alias stands for, if `resolveTargetModelId`
  finds it.

`invocable_iff` : the checks let through a router alias that names no entry, or one that is a router
alias itself.
-/

namespace ModelRouter
open Json Posix

/-! ## The checks -/

/-- The entry of another provider that a router alias targets. -/
def foreignTarget (models : List ModelDefinition) (model : ModelDefinition) :
    Option ModelDefinition :=
  if model.resolution.type ≠ .routerAlias then none
  else (models.find? (·.modelAlias = model.resolution.value)).filter (·.provider ≠ model.provider)

/-- A catalogue that has passed both checks. -/
structure LocalFileModelCatalogue extends ModelCatalogue where
  same_provider : ∀ model ∈ models, foreignTarget models model = none

/-- `sorted(duplicates)`. -/
def duplicates (aliases : List String) : List String :=
  (aliases.filter fun modelAlias => 1 < aliases.count modelAlias).dedup.mergeSort fun a b =>
    decide (a ≤ b)

namespace LocalFileModelCatalogue
variable (repr : String → String) (cataloguePath : Path)

/-- The message for a router alias with a target of another provider. -/
def crossProviderMessage (model target : ModelDefinition) : String :=
  "router_alias " ++ repr model.modelAlias ++ " (provider " ++ repr model.provider.value ++
    ") targets " ++
    repr model.resolution.value ++ " (provider " ++ repr target.provider.value ++
      ") in catalogue at " ++
    cataloguePath.text ++ " — a router_alias must target a model from the same provider, since the alias's own " ++
    "provider determines which adapter actually handles the invocation."

/-- The constructor, from the entries. -/
def ofModels (catalogueVersion : Int) (models : List ModelDefinition) :
    Except PyException LocalFileModelCatalogue :=
  if hunique : (models.map (·.modelAlias)).Nodup then
    match hcross : models.find? fun model => (foreignTarget models model).isSome with
    | none => .ok { catalogueVersion, models, unique_aliases := hunique, same_provider := by simpa using hcross }
    | some model => .error (.configurationError
        (crossProviderMessage repr cataloguePath model ((foreignTarget models model).getD model)))
  else
    .error (.configurationError
      ("Duplicate model_alias values in catalogue at " ++ cataloguePath.text ++ ": [" ++
      ", ".intercalate ((duplicates (models.map (·.modelAlias))).map repr) ++ "]"))

end LocalFileModelCatalogue

/-! ## The file -/

structure CatalogueFiles extends ConfigFiles where
  /-- The number that a text stands for. -/
  intOfText : Str → Option Int
  /-- The text of the exception of `int(..)` for a value that is no number. -/
  intError : PyValue → String
  /-- The text of the `TypeError` for a value that is not iterable. -/
  notIterable : PyValue → String
  repr : String → String

namespace CatalogueFiles

variable (files : CatalogueFiles)

/-- `int(value)`. The `OverflowError` of an infinity is not caught. -/
def int (value : PyValue) : Except PyException (Except String Int) :=
  match value with
  | .bool b => .ok (.ok b.toInt)
  | .number (.int n) => .ok (.ok n)
  | .number (.decimal d) => .ok (.ok (d.toRat.num.tdiv d.toRat.den))
  | .number (.float (.finite q)) => .ok (.ok (q.num.tdiv q.den))
  | .number (.float (.constant .nan)) => .ok (.error (files.intError value))
  | .number (.float (.constant _)) => .error (.other "OverflowError")
  | .string s => match files.intOfText s with
    | some n => .ok (.ok n)
    | none => .ok (.error (files.intError value))
  | .null | .array _ | .object _ => .ok (.error (files.intError value))

/-- The validated entries, or the text of the first exception. -/
def validateModels : List PyValue → Except String (List ModelDefinition)
  | [] => .ok []
  | item :: items => match ModelDefinition.modelValidate files.pydantic item with
    | none => .error (files.validationError "ModelDefinition" item)
    | some model => (validateModels items).map (model :: ·)

/-- The constructor. -/
def loadModelCatalogue (cataloguePath : Path) : Except PyException LocalFileModelCatalogue := do
  let data ← files.loadStructuredFile cataloguePath
  let invalid (exc : String) : PyException :=
    .configurationError ("Invalid model catalogue at " ++ cataloguePath.text ++ ": " ++ exc)
  match lookup "catalogue_version" data, lookup "models" data with
  | some version, some items =>
    match ← files.int version with
    | .error exc => .error (invalid exc)
    | .ok catalogueVersion => match PyValue.iter items with
      | .error _ => .error (invalid (files.notIterable items))
      | .ok items => match files.validateModels items with
        | .error exc => .error (invalid exc)
        | .ok models => LocalFileModelCatalogue.ofModels files.repr cataloguePath catalogueVersion models
  | _, _ => .error (.configurationError ("Model catalogue at " ++ cataloguePath.text ++ " must define " ++
      "'catalogue_version' and 'models'"))

end CatalogueFiles

/-! ## The targets -/

/-- The entry whose identifier is sent for an entry. -/
def ModelCatalogue.reached (catalogue : ModelCatalogue) (model : ModelDefinition) :
    Option ModelDefinition :=
  if model.resolution.type ≠ .routerAlias then some model
  else (catalogue.getByAlias model.resolution.value).filter (·.resolution.type ≠ .routerAlias)

section Reached
variable {repr : String → String} {catalogue : ModelCatalogue} {model target : ModelDefinition}

theorem resolveTargetModelId_ok_iff {targetModelId : String} :
    resolveTargetModelId repr model catalogue = .ok targetModelId ↔
      ∃ target, catalogue.reached model = some target ∧
        targetModelId = target.resolution.value := by
  unfold resolveTargetModelId ModelCatalogue.reached
  by_cases hdirect : model.resolution.type ≠ .routerAlias
  · simp [hdirect, eq_comm]
  · rw [if_neg hdirect, if_neg hdirect]
    dsimp only
    cases catalogue.getByAlias model.resolution.value with
    | none => simp
    | some target =>
        by_cases htarget : target.resolution.type = .routerAlias
        · simp [htarget, Option.filter]
        · simp [htarget, Option.filter, eq_comm]

/-- What is reached is an entry that is no router alias. -/
theorem reached_concrete (hmodel : model ∈ catalogue.models)
    (h : catalogue.reached model = some target) :
    target ∈ catalogue.models ∧ target.resolution.type ≠ .routerAlias := by
  unfold ModelCatalogue.reached at h
  split at h
  · obtain rfl := Option.some.inj h
    exact ⟨hmodel, by assumption⟩
  · obtain ⟨hfound, htarget⟩ := Option.filter_eq_some_iff.mp h
    exact ⟨List.mem_of_find?_eq_some hfound, of_decide_eq_true htarget⟩

theorem getByAlias_iff {modelAlias : String} :
    catalogue.getByAlias modelAlias = some target ↔ target ∈ catalogue.models ∧
    target.modelAlias = modelAlias := by
  constructor
  · intro h
    have halias := List.find?_some h
    exact ⟨List.mem_of_find?_eq_some h, of_decide_eq_true halias⟩
  · rintro ⟨hmem, halias⟩
    cases hfound : catalogue.getByAlias modelAlias with
    | none =>
        have hnone := List.find?_eq_none.mp hfound target hmem
        simp [halias] at hnone
    | some other =>
        have hother := List.mem_of_find?_eq_some hfound
        have hsame := List.find?_some hfound
        rw [ModelCatalogue.eq_of_alias hother hmem ((of_decide_eq_true hsame).trans halias.symm)]

/-- What is reached is an entry of the same provider. -/
theorem reached_provider {catalogue : LocalFileModelCatalogue} (hmodel : model ∈ catalogue.models)
    (h : catalogue.reached model = some target) : target.provider = model.provider := by
  unfold ModelCatalogue.reached at h
  split at h
  · rw [Option.some.inj h]
  · rename_i hrouter
    obtain ⟨hfound, -⟩ := Option.filter_eq_some_iff.mp h
    have hsame := catalogue.same_provider model hmodel
    rw [foreignTarget, if_neg hrouter,
      show catalogue.models.find? (·.modelAlias = model.resolution.value) = some target
      from hfound] at hsame
    simpa using hsame

end Reached

/-! ## Accepted catalogues -/

/-- What the checks accept is the entries themselves. -/
theorem LocalFileModelCatalogue.ofModels_models {repr : String → String} {cataloguePath : Path} {catalogueVersion : Int}
    {models : List ModelDefinition} {catalogue : LocalFileModelCatalogue}
    (h : ofModels repr cataloguePath catalogueVersion models = .ok catalogue) : catalogue.models = models := by
  unfold ofModels at h
  split at h
  · split at h
    · rw [← Except.ok.inj h]
    · simp at h
  · simp at h

/-- **An accepted catalogue resolves exactly if no router alias dangles or chains.** -/
theorem invocable_iff {repr : String → String} {cataloguePath : Path} {catalogueVersion : Int}
    {models : List ModelDefinition} {catalogue : LocalFileModelCatalogue}
    (h : LocalFileModelCatalogue.ofModels repr cataloguePath catalogueVersion models = .ok catalogue) :
    (∀ model ∈ catalogue.models, ∃ targetModelId,
        resolveTargetModelId repr model catalogue.toModelCatalogue = .ok targetModelId) ↔
      ∀ model ∈ models, model.resolution.type = .routerAlias → ∃ target ∈ models,
        target.modelAlias = model.resolution.value ∧ target.resolution.type ≠ .routerAlias := by
  obtain rfl := LocalFileModelCatalogue.ofModels_models h
  refine forall₂_congr fun model hmodel => ?_
  simp only [resolveTargetModelId_ok_iff]
  by_cases hrouter : model.resolution.type = .routerAlias
  · simp only [ModelCatalogue.reached, hrouter, ne_eq, not_true, if_false, Option.filter_eq_some_iff, getByAlias_iff,
      decide_not, Bool.not_eq_true', decide_eq_false_iff_not, true_implies]
    constructor
    · rintro ⟨-, target, ⟨⟨hmem, halias⟩, htarget⟩, -⟩
      exact ⟨target, hmem, halias, htarget⟩
    · rintro ⟨target, hmem, halias, htarget⟩
      exact ⟨_, target, ⟨⟨hmem, halias⟩, htarget⟩, rfl⟩
  · simp [ModelCatalogue.reached, hrouter]

/-! ## A router alias and its target -/

namespace Scenario

/-- An entry of Bedrock's. -/
def entry (modelAlias : String) (type : ModelResolutionType) (value : String) :
    ModelDefinition where
  modelAlias := modelAlias
  provider := .bedrock
  region := "eu-west-1"
  resolution := { type, value }
  capabilities :=
    { capabilityTags := ["text"], qualityTier := .standard, maxInputTokens := 4000
      maxOutputTokens := 2000 }
  pricing := { inputPricePer1kTokens := ⟨false, 1, -3⟩, outputPricePer1kTokens := ⟨false, 1, -3⟩ }
  resolution_matches_provider := Or.inl rfl

def catalogueFile : Path := ofText "policies/model_catalogue.yaml"

/-- A router alias of itself is accepted, and does not resolve. -/
theorem loop_accepted : ¬ ∀ catalogue,
    LocalFileModelCatalogue.ofModels id catalogueFile 1
    [entry "loop" .routerAlias "loop"] = .ok catalogue →
      ∀ model ∈ catalogue.models, ∃ targetModelId,
        resolveTargetModelId id model catalogue.toModelCatalogue = .ok targetModelId := by
  intro h
  obtain ⟨targetModelId, hresolved⟩ := h _ rfl (entry "loop" .routerAlias "loop") List.mem_cons_self
  simp [resolveTargetModelId, ModelCatalogue.getByAlias, entry] at hresolved

def routed : List ModelDefinition :=
  [entry "claude" .directModelId "anthropic.claude", entry "default" .routerAlias "claude"]

/-- A router alias of an entry that is none resolves. -/
theorem direct_invocable :
    ∃ catalogue, LocalFileModelCatalogue.ofModels id catalogueFile 1 routed = .ok catalogue ∧
    ∀ model ∈ catalogue.models, ∃ targetModelId,
      resolveTargetModelId id model catalogue.toModelCatalogue = .ok targetModelId := by
  refine ⟨_, rfl, (@invocable_iff id catalogueFile 1 routed _ rfl).mpr ?_⟩
  decide

end Scenario

end ModelRouter
