import ModelRouter.Adapters.LocalModelCatalogue
import ModelRouter.Adapters.ModelProviders

/-!
# What is sent to a provider

* `ClientCall.sent` : the provider whose API is called, with the identifier that it is sent;
* `CompositeModelProvider.Wired` : adapters that are registered under their own names, and share one
  catalogue;
* `dispatches_invoke`, `dispatches_invokeStream` : every call of an API is one of the provider that
  the request's alias names, with the identifier of the entry that it reaches.
-/

namespace ModelRouter
open Effects Prog

/-! ## The calls -/

/-- The call of a provider's API. -/
structure Sent where
  provider : ProviderName
  targetModelId : String
  maxTokens : Nat
  streaming : Bool
deriving DecidableEq, Repr

def ClientCall.sent : ClientCall → Option Sent
  | .converse payload => some ⟨.bedrock, payload.modelId, payload.inferenceConfig.maxTokens, false⟩
  | .converseStream payload =>
      some ⟨.bedrock, payload.modelId, payload.inferenceConfig.maxTokens, true⟩
  | .createChatCompletion payload => some ⟨.openai, payload.model, payload.maxTokens, false⟩
  | .streamChatCompletion payload => some ⟨.openai, payload.model, payload.maxTokens, true⟩
  | .application _ | .jitter | .sleep _ => none

/-- A call is for a prepared request. -/
def SentFor (name : ProviderName) (req : ProviderRequest) (catalogue : ModelCatalogue)
    (streaming : Bool) (call : ClientCall) : Prop :=
  (∀ p, call ≠ .application p) ∧ ∀ sent ∈ call.sent, ∃ model target,
    catalogue.getByAlias req.modelAlias = some model ∧ catalogue.reached model = some target ∧
      (req.requiresToolUse → model.capabilities.supportsToolUse) ∧
      (req.requiresStructuredOutput → model.capabilities.supportsStructuredOutput) ∧
      sent = ⟨name, target.resolution.value, req.maxOutputTokens, streaming⟩

section Adapter
variable {repr : String → String} {req : ProviderRequest} {catalogue : ModelCatalogue}

theorem checkCapabilities_ok {model : ModelDefinition}
    (h : checkCapabilities repr req model = .ok ()) :
    (req.requiresToolUse → model.capabilities.supportsToolUse) ∧
      (req.requiresStructuredOutput → model.capabilities.supportsStructuredOutput) := by
  unfold checkCapabilities at h
  split at h
  · simp at h
  · split at h
    · simp at h
    · rename_i htool hstructured
      constructor
      · intro hrequired
        by_contra hnot
        exact htool ⟨hrequired, hnot⟩
      · intro hrequired
        by_contra hnot
        exact hstructured ⟨hrequired, hnot⟩

/-- What a request that is prepared is for. -/
theorem prepare_ok {model : ModelDefinition} {targetModelId : String}
    (h : prepare repr req catalogue = .ok (model, targetModelId)) :
    catalogue.getByAlias req.modelAlias = some model ∧
      (∃ target, catalogue.reached model = some target ∧ targetModelId = target.resolution.value) ∧
      (req.requiresToolUse → model.capabilities.supportsToolUse) ∧
      (req.requiresStructuredOutput → model.capabilities.supportsStructuredOutput) := by
  unfold prepare resolveModel at h
  cases hmodel : catalogue.getByAlias req.modelAlias with
  | none => simp [hmodel, Bind.bind, Except.bind] at h
  | some found =>
      cases hcheck : checkCapabilities repr req found with
      | error x => simp [hmodel, hcheck, Bind.bind, Except.bind] at h
      | ok _ =>
          cases htarget : resolveTargetModelId repr found catalogue with
          | error x => simp [hmodel, hcheck, htarget, Bind.bind, Except.bind] at h
          | ok value =>
              simp only [hmodel, hcheck, htarget, Bind.bind, Except.bind, pure, Except.pure,
                Except.ok.injEq,
                Prod.mk.injEq] at h
              obtain ⟨rfl, rfl⟩ := h
              exact ⟨rfl, resolveTargetModelId_ok_iff.mp htarget, checkCapabilities_ok hcheck⟩

/-- The loop around a call makes that call, and waits. -/
theorem only_retried {ε ρ α : Type} {P : ClientCall → Prop} {policy : RetryPolicy}
    {classify : ε → ProviderErrorCategory} {call : Prog Clients (Except ε ρ)}
    {parse : ρ → Except PyException α} (hcall : @Only Clients _ P call) (hjitter : P .jitter)
    (hsleep : ∀ seconds, P (.sleep seconds)) :
    @Only Clients _ P (retried policy classify call parse) := by
  have hwait : ∀ k, @Only Clients _ P (waitBeforeRetry policy k) := by
    intro k
    exact (Only.perform hjitter).bind fun jitterFraction => Only.perform (hsleep _)
  exact (Only.retryLoop hcall hwait 0).bind fun outcome => Only.ofExcept _

theorem only_startGenerator {α : Type} {P : ClientCall → Prop} {body : Prog Clients α}
    (h : @Only Clients _ P body) :
    @Only Clients _ P (startGenerator body) := by
  refine h.attempt.bind fun outcome => ?_
  cases outcome <;> trivial

theorem sentFor_jitter {name : ProviderName} {streaming : Bool} :
    SentFor name req catalogue streaming .jitter :=
  ⟨by simp, by simp [ClientCall.sent]⟩

theorem sentFor_sleep {name : ProviderName} {streaming : Bool} (seconds : ℚ) :
    SentFor name req catalogue streaming (.sleep seconds) :=
  ⟨by simp, by simp [ClientCall.sent]⟩

/-- A prepared request, and a payload with its identifier. -/
theorem sentFor_prepared {name : ProviderName} {streaming : Bool} {call : ClientCall}
    {model : ModelDefinition}
    {targetModelId : String} (hprepare : prepare repr req catalogue = .ok (model, targetModelId))
    (happlication : ∀ p, call ≠ .application p)
    (hcall : call.sent = some ⟨name, targetModelId, req.maxOutputTokens, streaming⟩) :
    SentFor name req catalogue streaming call := by
  obtain ⟨hmodel, ⟨target, htarget, rfl⟩, htool, hstructured⟩ := prepare_ok hprepare
  refine ⟨happlication, fun sent hsent => ⟨model, target, hmodel, htarget, htool, hstructured, ?_⟩⟩
  rw [hcall] at hsent
  exact (Option.some.inj hsent).symm

end Adapter

/-! ## The adapters -/

section Methods
variable {req : ProviderRequest}

/-- What follows the preparation of a request. -/
theorem only_prepared {α : Type} {P : ClientCall → Prop}
    {o : Except PyException (ModelDefinition × String)}
    {body : ModelDefinition × String → Prog Clients α}
    (h : ∀ target, o = .ok target → @Only Clients _ P (body target)) :
    @Only Clients _ P (ofExcept o >>= body) := by
  cases o with
  | error x => trivial
  | ok target => exact h target rfl

theorem BedrockModelProvider.sends_invoke (provider : BedrockModelProvider) :
    @Only Clients _ (SentFor .bedrock req provider.modelCatalogue false) (provider.invoke req) := by
  refine only_prepared fun target htarget =>
    only_retried (Only.perform ?_) sentFor_jitter sentFor_sleep
  exact sentFor_prepared htarget (by simp) rfl

theorem BedrockModelProvider.sends_invokeStream (provider : BedrockModelProvider) :
    @Only Clients _ (SentFor .bedrock req provider.modelCatalogue true)
      (provider.invokeStream req) := by
  refine only_prepared fun target htarget => only_startGenerator ?_
  refine only_retried (Only.perform ?_) sentFor_jitter sentFor_sleep
  exact sentFor_prepared htarget (by simp) rfl

theorem OpenAIModelProvider.sends_invoke (provider : OpenAIModelProvider) :
    @Only Clients _ (SentFor .openai req provider.modelCatalogue false) (provider.invoke req) := by
  refine only_prepared fun target htarget =>
    only_retried (Only.perform ?_) sentFor_jitter sentFor_sleep
  exact sentFor_prepared htarget (by simp) rfl

theorem OpenAIModelProvider.sends_invokeStream (provider : OpenAIModelProvider) :
    @Only Clients _ (SentFor .openai req provider.modelCatalogue true)
      (provider.invokeStream req) := by
  refine only_prepared fun target htarget => only_startGenerator ?_
  refine only_retried (Only.perform ?_) sentFor_jitter sentFor_sleep
  exact sentFor_prepared htarget (by simp) rfl

end Methods

namespace ProviderAdapter

def name : ProviderAdapter → ProviderName
  | bedrock _ => .bedrock
  | openai _ => .openai

def modelCatalogue : ProviderAdapter → ModelCatalogue
  | bedrock provider => provider.modelCatalogue
  | openai provider => provider.modelCatalogue

theorem sends_invoke (adapter : ProviderAdapter) (req : ProviderRequest) :
    @Only Clients _ (SentFor adapter.name req adapter.modelCatalogue false)
      (adapter.invoke req) := by
  cases adapter with
  | bedrock provider => exact provider.sends_invoke
  | openai provider => exact provider.sends_invoke

theorem sends_invokeStream (adapter : ProviderAdapter) (req : ProviderRequest) :
    @Only Clients _ (SentFor adapter.name req adapter.modelCatalogue true)
      (adapter.invokeStream req) := by
  cases adapter with
  | bedrock provider => exact provider.sends_invokeStream
  | openai provider => exact provider.sends_invokeStream

end ProviderAdapter

/-! ## The composite provider -/

namespace CompositeModelProvider

/-- Every adapter is registered under its own provider's name, and has the catalogue of the
composite. -/
structure Wired (composite : CompositeModelProvider) (catalogue : ModelCatalogue) : Prop where
  modelCatalogue : composite.modelCatalogue = catalogue
  adapters : ∀ name adapter, composite.providers name = some adapter →
    adapter.name = name ∧ adapter.modelCatalogue = catalogue

variable {composite : CompositeModelProvider} {catalogue : ModelCatalogue} {req : ProviderRequest}

theorem resolveProvider_ok {adapter : ProviderAdapter} (hwired : composite.Wired catalogue)
    (h : composite.resolveProvider req = .ok adapter) :
    ∃ model, catalogue.getByAlias req.modelAlias = some model ∧ adapter.name = model.provider ∧
      adapter.modelCatalogue = catalogue := by
  unfold resolveProvider resolveModel at h
  rw [hwired.modelCatalogue] at h
  cases hmodel : catalogue.getByAlias req.modelAlias with
  | none => simp [hmodel, Bind.bind, Except.bind] at h
  | some model =>
      cases hadapter : composite.providers model.provider with
      | none => simp [hmodel, hadapter, Bind.bind, Except.bind] at h
      | some found =>
          simp only [hmodel, hadapter, Bind.bind, Except.bind, Except.ok.injEq] at h
          subst h
          exact ⟨model, rfl, hwired.adapters _ _ hadapter⟩

/-- The request is sent to the provider of the entry that its alias names. -/
def Dispatched (req : ProviderRequest) (catalogue : ModelCatalogue) (streaming : Bool)
    (call : ClientCall) : Prop :=
  ∃ model, catalogue.getByAlias req.modelAlias = some model ∧
    SentFor model.provider req catalogue streaming call

/-- **What the composite provider sends.** -/
theorem dispatches_invoke (hwired : composite.Wired catalogue) :
    @Only Clients _ (Dispatched req catalogue false) (composite.invoke req) := by
  unfold CompositeModelProvider.invoke
  cases hadapter : composite.resolveProvider req with
  | error x => trivial
  | ok adapter =>
      obtain ⟨model, hmodel, hname, hcatalogue⟩ := resolveProvider_ok hwired hadapter
      refine (adapter.sends_invoke req).mono fun call hcall => ⟨model, hmodel, ?_⟩
      rwa [hname, hcatalogue] at hcall

theorem dispatches_invokeStream (hwired : composite.Wired catalogue) :
    @Only Clients _ (Dispatched req catalogue true) (composite.invokeStream req) := by
  unfold CompositeModelProvider.invokeStream
  cases hadapter : composite.resolveProvider req with
  | error x => trivial
  | ok adapter =>
      obtain ⟨model, hmodel, hname, hcatalogue⟩ := resolveProvider_ok hwired hadapter
      refine (adapter.sends_invokeStream req).mono fun call hcall => ⟨model, hmodel, ?_⟩
      rwa [hname, hcatalogue] at hcall

end CompositeModelProvider

end ModelRouter
