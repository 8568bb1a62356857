import Mathlib.Data.List.Dedup
import Mathlib.Data.List.Forall2
import ModelRouter.Adapters.Dispatch

/-!
# The grants of the deployed function

* `loadBedrockResourceArns` : the resources that the stack grants, from the plain data of the
  catalogue's file;
* `ModelDefinition.arn` : the resource that a call for an entry needs.

`grants_match` : for a file that the runtime accepts, the grants are the resources of the entries
that its Bedrock models reach, and a call of an API is one of the provider that its alias names.
-/

namespace ModelRouter
open Effects Json Posix

/-! ## The stack -/

/-- `f"{value}"`: what is no string is shown by its `repr`, which is a parameter. -/
def PyValue.format (repr : PyValue → String) : PyValue → String
  | .string (.text s) => s
  | value => repr value

section Stack
variable (files : ConfigFiles) (repr : PyValue → String) (region accountId : String)

/-- `repo_root / "policies" / "model_catalogue.yaml"`. -/
def catalogueIn (repoRoot : Path) : Path := (repoRoot.join "policies").join "model_catalogue.yaml"

/-- `_load_catalogue_models`. -/
def loadCatalogueModels (repoRoot : Path) : Except PyException PyValue := do
  let text ← files.openText (catalogueIn repoRoot)
  match files.yamlSafeLoad text with
  | .error _ => .error (.other "YAMLError")
  | .ok data => (data.get "models" (.array [])).mapError fun _ => .other "AttributeError"

/-- The resource of one entry. A router alias names none. -/
def resourceArn (model : PyValue) : Except DynamicError (Option String) := do
  let provider ← model.get "provider"
  if ¬ provider.isText "bedrock" then pure none
  else
    let resolution ← model.getItem "resolution"
    let resolutionType ← resolution.getItem "type"
    let value ← resolution.getItem "value"
    if resolutionType.isText "direct_model_id" then
      pure (some ("arn:aws:bedrock:" ++ region ++ "::foundation-model/" ++ value.format repr))
    else if resolutionType.isText "cross_region_inference_profile" ∨
        resolutionType.isText "application_inference_profile" then
      pure (some ("arn:aws:bedrock:" ++ region ++ ":" ++ accountId ++ ":inference-profile/" ++
        value.format repr))
    else pure none

/-- The loop over the entries. -/
def resourceArns : List PyValue → Except DynamicError (List String)
  | [] => .ok []
  | model :: models => do
    let arn ← resourceArn repr region accountId model
    let arns ← resourceArns models
    pure (arn.toList ++ arns)

/-- `_load_bedrock_resource_arns`. -/
def loadBedrockResourceArns (models : PyValue) : Except DynamicError (List String) := do
  let models ← PyValue.iter models
  let arns ← resourceArns repr region accountId models
  pure (arns.dedup.mergeSort fun a b => decide (a ≤ b))

end Stack

/-! ## The runtime -/

/-- The resource of a concrete entry of Bedrock's. -/
def ModelDefinition.arn (accountId : String) (model : ModelDefinition) : Option String :=
  match model.resolution.type with
  | .directModelId =>
      some ("arn:aws:bedrock:" ++ model.region ++ "::foundation-model/" ++ model.resolution.value)
  | .crossRegionInferenceProfile | .applicationInferenceProfile =>
    some ("arn:aws:bedrock:" ++ model.region ++ ":" ++ accountId ++ ":inference-profile/" ++
      model.resolution.value)
  | .routerAlias => none

/-- The resource that the stack should grant for an entry. -/
def ModelDefinition.grant (accountId : String) (model : ModelDefinition) : Option String :=
  if model.provider = .bedrock then model.arn accountId else none

/-! ## The file -/

section File
variable {files : CatalogueFiles} {repr : PyValue → String} {region accountId : String}
  {value : PyValue} {model : ModelDefinition}

theorem get_of_lookup {members : List (Str × PyValue)} {key : String}
    (h : lookup key members = some value)
    (default : PyValue) : PyValue.get key (.object members) default = .ok value := by
  simp [PyValue.get, h]

theorem getItem_of_lookup {members : List (Str × PyValue)} {key : String}
    (h : lookup key members = some value) :
    PyValue.getItem key (.object members) = .ok value := by
  simp [PyValue.getItem, h]

/-- The stack reads of an entry what the runtime validated. -/
theorem resourceArn_validated (h : ModelDefinition.modelValidate files.pydantic value = some model)
    (hregion : model.provider = .bedrock → model.region = region) :
    resourceArn repr region accountId value = .ok (model.grant accountId) := by
  obtain ⟨members, resolution, rfl, hprovider, hresolution, htype, hvalue⟩ :=
    ModelDefinition.modelValidate_read h
  unfold resourceArn
  rw [get_of_lookup hprovider, getItem_of_lookup hresolution]
  simp only [bind, Except.bind, getItem_of_lookup htype, getItem_of_lookup hvalue,
    ModelDefinition.grant]
  by_cases hbedrock : model.provider = .bedrock
  · rw [if_pos hbedrock, ModelDefinition.arn, hregion hbedrock]
    cases hresolutionType : model.resolution.type <;>
      simp [hbedrock, Value.isText, ProviderName.value, ModelResolutionType.value, PyValue.format,
        pure, Except.pure]
  · have hopenai : model.provider = .openai := by
      cases hname : model.provider <;> simp_all
    simp [hopenai, Value.isText, ProviderName.value, pure, Except.pure]

theorem validateModels_forall₂ {items : List PyValue} {models : List ModelDefinition}
    (h : files.validateModels items = .ok models) :
    List.Forall₂ (fun item model => ModelDefinition.modelValidate files.pydantic item = some model)
      items models := by
  induction items generalizing models with
  | nil =>
      obtain rfl := Except.ok.inj h
      exact .nil
  | cons item items ih =>
      simp only [CatalogueFiles.validateModels] at h
      split at h
      · simp at h
      · rename_i model hmodel
        cases hitems : files.validateModels items with
        | error exc => simp [hitems, Except.map] at h
        | ok models' =>
            rw [hitems] at h
            obtain rfl := Except.ok.inj h
            exact .cons hmodel (ih hitems)

theorem resourceArns_validated {items : List PyValue} {models : List ModelDefinition}
    (h : List.Forall₂ (fun item model =>
      ModelDefinition.modelValidate files.pydantic item = some model) items models)
    (hregion : ∀ model ∈ models, model.provider = .bedrock → model.region = region) :
    resourceArns repr region accountId items = .ok (models.filterMap (·.grant accountId)) := by
  induction h with
  | nil => rfl
  | @cons item model items models hmodel _ ih =>
      have hrest := ih fun other hother => hregion other (List.mem_cons_of_mem _ hother)
      rw [resourceArns, resourceArn_validated hmodel (hregion model List.mem_cons_self), hrest,
        List.filterMap_cons]
      simp only [bind, Except.bind, pure, Except.pure]
      cases model.grant accountId <;> rfl

theorem catalogueIn_suffix (repoRoot : Path) : (catalogueIn repoRoot).suffix = ".yaml" := by
  have hname : (catalogueIn repoRoot).name = "model_catalogue.yaml" := by
    have hrelative : (ofText "model_catalogue.yaml").absolute = false := by decide
    have hnames : names "model_catalogue.yaml" = ["model_catalogue.yaml"] := by decide +kernel
    simp [catalogueIn, Path.name, Path.join, hrelative, hnames]
  unfold Path.suffix
  rw [hname]
  decide

theorem loadStructuredFile_ok {path : Path} {data : List (Str × PyValue)} {config : ConfigFiles}
    (hyaml : path.suffix = ".yaml") (h : config.loadStructuredFile path = .ok data) :
    ∃ text, config.openText path = .ok text ∧ config.yamlSafeLoad text = .ok (.object data) := by
  unfold ConfigFiles.loadStructuredFile ConfigFiles.readText ConfigFiles.parse at h
  cases htext : config.openText path with
  | error x => simp [htext, Except.mapError, bind, Except.bind] at h
  | ok text =>
      cases hload : config.yamlSafeLoad text with
      | error exc => simp [htext, hload, hyaml, Except.mapError, bind, Except.bind] at h
      | ok value =>
          simp only [htext, hload, hyaml, Except.mapError, bind, Except.bind, true_or, if_true] at h
          split at h
          · rename_i members
            obtain rfl := Except.ok.inj h
            exact ⟨text, rfl, hload⟩
          · simp at h

/-- What the runtime has read of a file that it accepts. -/
theorem loadModelCatalogue_ok {path : Path} {catalogue : LocalFileModelCatalogue}
    (hyaml : path.suffix = ".yaml") (h : files.loadModelCatalogue path = .ok catalogue) :
    ∃ text data raw items, files.openText path = .ok text ∧
      files.yamlSafeLoad text = .ok (.object data) ∧
      lookup "models" data = some raw ∧ PyValue.iter raw = .ok items ∧
      files.validateModels items = .ok catalogue.models := by
  unfold CatalogueFiles.loadModelCatalogue at h
  cases hdata : files.loadStructuredFile path with
  | error x => simp [hdata, bind, Except.bind] at h
  | ok data =>
      obtain ⟨text, htext, hload⟩ := loadStructuredFile_ok hyaml hdata
      simp only [hdata, bind, Except.bind] at h
      split at h
      · rename_i version raw _ hraw
        split at h
        · simp at h
        · split at h
          · simp at h
          · split at h
            · simp at h
            · rename_i items hitems
              split at h
              · simp at h
              · rename_i models hmodels
                rw [← LocalFileModelCatalogue.ofModels_models h] at hmodels
                exact ⟨text, data, raw, items, htext, hload, hraw, hitems, hmodels⟩
      · simp at h

end File

/-! ## Grants and targets -/

section Grants
variable {files : CatalogueFiles} {repr : PyValue → String} {region accountId arn : String}
  {catalogue : LocalFileModelCatalogue}

/-- A resource of the entry that a model of Bedrock's reaches when its identifier is resolved. -/
def Needed (shown : String → String) (catalogue : LocalFileModelCatalogue)
    (accountId arn : String) : Prop :=
  ∃ model ∈ catalogue.models, model.provider = .bedrock ∧ ∃ targetModelId target,
    resolveTargetModelId shown model catalogue.toModelCatalogue = .ok targetModelId ∧
      catalogue.reached model = some target ∧ target.resolution.value = targetModelId ∧
      target.arn accountId = some arn

/-- **The grants of the entries are the needs of the models.** -/
theorem mem_grants_iff {shown : String → String} :
    arn ∈ catalogue.models.filterMap (·.grant accountId) ↔
    Needed shown catalogue accountId arn := by
  simp only [List.mem_filterMap, ModelDefinition.grant, Option.ite_none_right_eq_some]
  constructor
  · rintro ⟨model, hmodel, hbedrock, harn⟩
    have hconcrete : model.resolution.type ≠ .routerAlias := by
      intro hrouter
      simp [ModelDefinition.arn, hrouter] at harn
    have hreached : catalogue.reached model = some model := by
      simp [ModelCatalogue.reached, hconcrete]
    exact ⟨model, hmodel, hbedrock, _, model,
      resolveTargetModelId_ok_iff.mpr ⟨model, hreached, rfl⟩, hreached, rfl, harn⟩
  · rintro ⟨model, hmodel, hbedrock, -, target, -, hreached, -, harn⟩
    have htarget := (reached_concrete hmodel hreached).1
    exact ⟨target, htarget, (reached_provider hmodel hreached).trans hbedrock, harn⟩

/-- The grants of a file that the runtime accepts. -/
theorem grants_of_accepted {repoRoot : Path}
    (h : files.loadModelCatalogue (catalogueIn repoRoot) = .ok catalogue)
    (hregion : ∀ model ∈ catalogue.models, model.provider = .bedrock → model.region = region) :
    ∃ raw arns, loadCatalogueModels files.toConfigFiles repoRoot = .ok raw ∧
      loadBedrockResourceArns repr region accountId raw = .ok arns ∧
      ∀ arn, arn ∈ arns ↔ Needed files.repr catalogue accountId arn := by
  obtain ⟨text, data, raw, items, htext, hload, hraw, hitems, hmodels⟩ :=
    loadModelCatalogue_ok (catalogueIn_suffix repoRoot) h
  have harns : resourceArns repr region accountId items =
      .ok (catalogue.models.filterMap (·.grant accountId)) :=
    resourceArns_validated (validateModels_forall₂ hmodels) hregion
  refine ⟨raw, (catalogue.models.filterMap (·.grant accountId)).dedup.mergeSort fun a b =>
    decide (a ≤ b), ?_, ?_,
    fun arn => ?_⟩
  · simp [loadCatalogueModels, htext, hload, PyValue.get, hraw, bind, Except.bind, Except.mapError]
  · simp [loadBedrockResourceArns, hitems, harns, bind, Except.bind, pure, Except.pure]
  · rw [List.mem_mergeSort, List.mem_dedup, mem_grants_iff]

/-- A call of an API is one of the provider that the alias names, for an entry of the same
provider. -/
theorem dispatched_provider {req : ProviderRequest} {streaming : Bool} {call : ClientCall}
    (h : CompositeModelProvider.Dispatched req catalogue.toModelCatalogue streaming call)
    {sent : Sent} (hsent : sent ∈ call.sent) :
    ∃ model ∈ catalogue.models, model.modelAlias = req.modelAlias ∧ sent.provider = model.provider ∧
      ∃ target ∈ catalogue.models, target.resolution.type ≠ .routerAlias ∧
        target.provider = model.provider ∧
        sent.targetModelId = target.resolution.value := by
  obtain ⟨model, hmodel, -, hcall⟩ := h
  obtain ⟨model', target, hmodel', hreached, -, -, rfl⟩ := hcall sent hsent
  obtain rfl := Option.some.inj (hmodel.symm.trans hmodel')
  obtain ⟨hmem, halias⟩ := getByAlias_iff.mp hmodel
  obtain ⟨htarget, hconcrete⟩ := reached_concrete hmem hreached
  exact ⟨model, hmem, halias, rfl, target, htarget, hconcrete, reached_provider hmem hreached, rfl⟩

/-- **The deployed grants match the runtime's targets**, and a composite provider with the adapters
of the accepted catalogue sends to a provider nothing but identifiers of that provider's entries. -/
theorem grants_match (files : CatalogueFiles) (repr : PyValue → String) (repoRoot : Path)
    (region accountId : String)
    (catalogue : LocalFileModelCatalogue)
    (h : files.loadModelCatalogue (catalogueIn repoRoot) = .ok catalogue)
    (hregion : ∀ model ∈ catalogue.models, model.provider = .bedrock → model.region = region) :
    (∃ raw arns, loadCatalogueModels files.toConfigFiles repoRoot = .ok raw ∧
      loadBedrockResourceArns repr region accountId raw = .ok arns ∧
      ∀ arn, arn ∈ arns ↔ Needed files.repr catalogue accountId arn) ∧
    ∀ (composite : CompositeModelProvider), composite.Wired catalogue.toModelCatalogue →
      ∀ (req : ProviderRequest) (tr : List (Event Clients)),
        Trace (composite.invoke req) tr ∨ Trace (composite.invokeStream req) tr →
          ∀ ev ∈ tr, ∀ sent ∈ ev.call.sent, ∃ model ∈ catalogue.models,
            model.modelAlias = req.modelAlias ∧ sent.provider = model.provider ∧
            ∃ target ∈ catalogue.models, target.resolution.type ≠ .routerAlias ∧
              target.provider = model.provider ∧ sent.targetModelId = target.resolution.value := by
  refine ⟨grants_of_accepted h hregion, fun composite hwired req tr htrace ev hev sent hsent => ?_⟩
  rcases htrace with htrace | htrace
  · exact dispatched_provider
      ((CompositeModelProvider.dispatches_invoke hwired).trace htrace ev hev) hsent
  · exact dispatched_provider
      ((CompositeModelProvider.dispatches_invokeStream hwired).trace htrace ev hev) hsent

end Grants

/-! ## A catalogue of two entries -/

namespace Scenario

/-- The fields that both entries share. -/
def entryFields (modelAlias type value : String) : PyValue :=
  .object [(.text "model_alias", .string (.text modelAlias)),
    (.text "provider", .string (.text "bedrock")),
    (.text "region", .string (.text "eu-west-1")),
    (.text "resolution", .object [(.text "type", .string (.text type)),
      (.text "value", .string (.text value))]),
    (.text "capabilities", .object [(.text "capability_tags", .array [.string (.text "chat")]),
      (.text "quality_tier", .string (.text "standard")),
        (.text "max_input_tokens", .number (.int 8000)),
      (.text "max_output_tokens", .number (.int 1000))]),
    (.text "pricing", .object [(.text "input_price_per_1k_tokens", .number (.int 1)),
      (.text "output_price_per_1k_tokens", .number (.int 2)),
        (.text "pricing_version", .number (.int 1))])]

/-- The lines of one entry. -/
def entryLines (modelAlias type value : String) : String :=
  "- model_alias: " ++ modelAlias ++
    "\n  provider: bedrock\n  region: eu-west-1\n  resolution:\n    type: " ++ type ++
    "\n    value: " ++ value ++
      "\n  capabilities:\n    capability_tags: [chat]\n    quality_tier: standard\n" ++
    "    max_input_tokens: 8000\n    max_output_tokens: 1000\n  pricing:\n    input_price_per_1k_tokens: 1\n" ++
    "    output_price_per_1k_tokens: 2\n    pricing_version: 1\n"

def catalogueText : String :=
  "catalogue_version: 1\nmodels:\n" ++ entryLines "claude" "direct_model_id" "anthropic.claude" ++
    entryLines "default" "router_alias" "claude"

def catalogueData : PyValue :=
  .object [(.text "catalogue_version", .number (.int 1)),
    (.text "models", .array [entryFields "claude" "direct_model_id" "anthropic.claude",
      entryFields "default" "router_alias" "claude"])]

/-- `policies/model_catalogue.yaml` is there, and nothing else. -/
def catalogueFiles : CatalogueFiles where
  fs := .ofEntries [[], ["policies"]] [(["policies", "model_catalogue.yaml"], some catalogueText)]
  yamlSafeLoad text := if text = catalogueText then .ok catalogueData
    else .error "not the catalogue"
  jsonLoads _ := .error "Expecting value"
  pydantic :=
    { Pydantic.strict with
      decimal := fun
        | .number (.int n) => some ⟨n < 0, n.natAbs, 0⟩
        | _ => none }
  osError _ := ""
  validationError _ _ := ""
  intOfText _ := none
  intError _ := ""
  notIterable _ := ""
  repr := id

/-- A composite provider with Bedrock's adapter only. -/
def granted (catalogue : LocalFileModelCatalogue) : CompositeModelProvider where
  modelCatalogue := catalogue.toModelCatalogue
  providers
    | .bedrock => some (.bedrock { modelCatalogue := catalogue.toModelCatalogue, pydantic := .strict, repr := id })
    | .openai => none
  repr := id

theorem granted_wired (catalogue : LocalFileModelCatalogue) : (granted catalogue).Wired catalogue.toModelCatalogue where
  modelCatalogue := rfl
  adapters name adapter hadapter := by
    cases name with
    | openai => simp [granted] at hadapter
    | bedrock =>
        obtain rfl := Option.some.inj hadapter
        exact ⟨rfl, rfl⟩

/-- A request for the router alias. -/
def defaultRequest : ProviderRequest where
  modelAlias := "default"
  messages := [⟨.user, "hello"⟩]
  maxOutputTokens := 100
  messages_ne := by simp
  maxOutputTokens_pos := by decide
  temperature_range := inRange_none
  topP_range := inRange_none

/-- Bedrock denies every `converse`; nothing else is called. -/
def denying : Handler Clients Unit
  | .converse _, s => (.ok (.error (.clientError "AccessDeniedException")), s)
  | _, s => (.error (.other "RuntimeError"), s)

/-- What the request sends. -/
def defaultCalls (catalogue : LocalFileModelCatalogue) : List (Event Clients) :=
  trace denying ((granted catalogue).invoke defaultRequest) ()

/-- The file is accepted, its region is the stack's, and the request is sent to the target of the
alias. -/
def accepted : Bool :=
  match catalogueFiles.loadModelCatalogue (catalogueIn (ofText "")) with
  | .ok catalogue => catalogue.models.all (fun model => model.region = "eu-west-1") &&
    (defaultCalls catalogue).map (·.call.sent) = [some ⟨.bedrock, "anthropic.claude", 100, false⟩]
  | .error _ => false

theorem two_entries_granted :
    ∃ catalogue, catalogueFiles.loadModelCatalogue (catalogueIn (ofText "")) = .ok catalogue ∧
    (∃ raw arns, loadCatalogueModels catalogueFiles.toConfigFiles (ofText "") = .ok raw ∧
      loadBedrockResourceArns (fun _ => "") "eu-west-1" "123456789012" raw = .ok arns ∧
      ∀ arn, arn ∈ arns ↔ Needed id catalogue "123456789012" arn) ∧
    (defaultCalls catalogue).map (·.call.sent) = [some ⟨.bedrock, "anthropic.claude", 100, false⟩] ∧
    ∀ ev ∈ defaultCalls catalogue, ∀ sent ∈ ev.call.sent, ∃ model ∈ catalogue.models,
      model.modelAlias = "default" ∧ sent.provider = model.provider ∧
      ∃ target ∈ catalogue.models, target.resolution.type ≠ .routerAlias ∧
        target.provider = model.provider ∧ sent.targetModelId = target.resolution.value := by
  have haccepted : accepted = true := by decide +kernel
  unfold accepted at haccepted
  split at haccepted
  · rename_i catalogue h
    rw [Bool.and_eq_true, decide_eq_true_eq] at haccepted
    have hregion : ∀ model ∈ catalogue.models, model.provider = .bedrock →
        model.region = "eu-west-1" :=
      fun model hmodel _ => of_decide_eq_true (List.all_eq_true.mp haccepted.1 model hmodel)
    have hmatch := grants_match catalogueFiles (fun _ => "")
        (ofText "") "eu-west-1" "123456789012" catalogue h hregion
    have hrun : @Trace Clients _ ((granted catalogue).invoke defaultRequest)
        (defaultCalls catalogue) :=
      (run_exec _ _ ()).trace
    exact ⟨catalogue, h, hmatch.1, haccepted.2,
      hmatch.2 _ (granted_wired catalogue) defaultRequest _ (.inl hrun)⟩
  · simp at haccepted

end Scenario

end ModelRouter
