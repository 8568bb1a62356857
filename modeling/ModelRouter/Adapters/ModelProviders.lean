import ModelRouter.Adapters.ChatCompletionsMapper
import ModelRouter.Application.Ports
import ModelRouter.Lib.Retry

/-!
# The model providers

`BedrockModelProvider` and `OpenAIModelProvider` call the client of an SDK, under a `RetryPolicy`;
`CompositeModelProvider` dispatches a request to one of them. They are programs over `Clients`: the
calls of the two clients, the jitter, the sleep, and the ports of the application layer that no
provider serves.

* `retried` : the loop that all four methods share;
* `CompositeModelProvider.serve` : a use case whose model provider is the composite one.

The exceptions of an SDK that an adapter catches are answers of its client. The generator of a
stream is run up to its first item at the call, which is where the orchestrator pulls it.
-/

namespace ModelRouter
open Effects Prog

/-! ## The clients -/

/-- What the Bedrock adapter catches: a `ClientError` with its code, or another error of
botocore's. -/
inductive BotoError where
  | clientError (code : String)
  | connectTimeoutError | readTimeoutError | botoCoreError
deriving DecidableEq, Repr

/-- `OpenAIError`. -/
inductive OpenAIError where
  | rateLimitError | apiTimeoutError | apiConnectionError
  | apiStatusError (statusCode : Nat)
  | other
deriving DecidableEq, Repr

inductive ClientCall where
  | application (p : Port)
  | converse (payload : ConverseRequest)
  | converseStream (payload : ConverseRequest)
  | createChatCompletion (payload : ChatCompletionRequest)
  | streamChatCompletion (payload : ChatCompletionRequest)
  | jitter
  | sleep (seconds : ℚ)

/-- What a client returns. The response of `converse_stream` may lack its `stream`. -/
@[reducible] def ClientCall.Answer : ClientCall → Type
  | .application p => p.Answer
  | .converse _ => Except BotoError PyValue
  | .converseStream _ => Except BotoError (Option (RawStream PyValue BotoError))
  | .createChatCompletion _ => Except OpenAIError ChatCompletion
  | .streamChatCompletion _ => Except OpenAIError (RawStream ChatCompletionChunk OpenAIError)
  | .jitter => ℚ
  | .sleep _ => Unit

abbrev Clients : Sig := { Call := ClientCall, Answer := ClientCall.Answer, Exc := PyException }

/-- Make a call; its exception is raised here. -/
abbrev request (call : ClientCall) : Prog Clients call.Answer := @Prog.perform Clients call

/-! ## Retries -/

/-- `delay = compute_backoff_delay(..)` and the sleep. -/
def waitBeforeRetry (policy : RetryPolicy) (attempt : Nat) : Prog Clients Unit := do
  let jitterFraction ← request .jitter
  request (.sleep (computeBackoffDelay attempt policy jitterFraction))

section
variable {ε ρ α : Type}

/-- The error of a category that is tried again. -/
def retryable (classify : ε → ProviderErrorCategory) (exc : ε) : Bool :=
  classify exc ∈ retryableCategories

/-- The result of a client's last outcome. -/
def settle (classify : ε → ProviderErrorCategory) (parse : ρ → Except PyException α) :
    Except ε ρ → Except PyException α
  | .ok raw => parse raw
  | .error exc => .error (providerErrorFor (classify exc))

/-- The loop around a call of a client, and what becomes of its last outcome. -/
def retried (policy : RetryPolicy) (classify : ε → ProviderErrorCategory)
    (call : Prog Clients (Except ε ρ)) (parse : ρ → Except PyException α) : Prog Clients α := do
  let outcome ← retryLoop call (retryable classify)
    (waitBeforeRetry policy) policy.maxAttempts.toNat 0
  ofExcept (settle classify parse outcome)

end

/-! ## Generators -/

/-- A `StopIteration` that leaves a generator becomes a `RuntimeError`. -/
def leaveGenerator : PyException → PyException
  | .stopIteration => .runtimeError "generator raised StopIteration"
  | x => x

/-- The part of a generator up to its first item. -/
def startGenerator {α : Type} (body : Prog Clients α) : Prog Clients α := do
  match ← body.attempt with
  | .error x => raise (leaveGenerator x)
  | .ok a => ret a

/-- What a stream of the SDK's raises into the adapter. -/
def streamFailure {ε : Type} (classify : ε → ProviderErrorCategory) : ε ⊕ PyException → PyException
  | .inl exc => providerErrorFor (classify exc)
  | .inr x => leaveGenerator x

/-! ## Bedrock -/

structure BedrockModelProvider where
  modelCatalogue : ModelCatalogue
  retryPolicy : RetryPolicy := {}
  pydantic : Pydantic
  repr : String → String

namespace BedrockModelProvider

def throttledCodes : List String := ["ThrottlingException", "TooManyRequestsException"]

def timeoutCodes : List String := ["ModelTimeoutException"]

def transientCodes : List String :=
  ["ServiceUnavailableException", "InternalServerException", "ModelNotReadyException"]

def classifyClientError (code : String) : ProviderErrorCategory :=
  if code ∈ throttledCodes then .throttled
  else if code ∈ timeoutCodes then .timeout
  else if code ∈ transientCodes then .transient
  else .permanent

def classifyProviderException : BotoError → ProviderErrorCategory
  | .clientError code => classifyClientError code
  | .connectTimeoutError | .readTimeoutError => .timeout
  | .botoCoreError => .transient

variable (provider : BedrockModelProvider)

def invoke (req : ProviderRequest) : Prog Clients ProviderResponse := do
  let target ← ofExcept (prepare provider.repr req provider.modelCatalogue)
  retried provider.retryPolicy classifyProviderException
    (request (.converse (buildConverseRequest req target.2)))
    fun raw => parseConverseResponse provider.pydantic raw req.modelAlias target.1.provider

/-- The chunks of an established stream. -/
def streamChunks : Option (RawStream PyValue BotoError) → Except PyException ChunkStream
  | none => .error (.other "KeyError")
  | some stream => .ok (iterConverseStreamEvents provider.pydantic
      (stream.failure.map (streamFailure classifyProviderException)) stream.items {})

/-- `_stream`. -/
def stream (payload : ConverseRequest) : Prog Clients ChunkStream :=
  startGenerator (retried provider.retryPolicy classifyProviderException
    (request (.converseStream payload))
    provider.streamChunks)

def invokeStream (req : ProviderRequest) : Prog Clients ChunkStream := do
  let target ← ofExcept (prepare provider.repr req provider.modelCatalogue)
  provider.stream (buildConverseRequest req target.2)

end BedrockModelProvider

/-! ## OpenAI -/

structure OpenAIModelProvider where
  modelCatalogue : ModelCatalogue
  retryPolicy : RetryPolicy := {}
  repr : String → String

namespace OpenAIModelProvider

/-- `_TRANSIENT_STATUS_CODE_FLOOR`. -/
def transientStatusCodeFloor : Nat := 500

def classifyProviderException : OpenAIError → ProviderErrorCategory
  | .rateLimitError => .throttled
  | .apiTimeoutError => .timeout
  | .apiConnectionError => .transient
  | .apiStatusError statusCode =>
      if transientStatusCodeFloor ≤ statusCode then .transient else .permanent
  | .other => .permanent

variable (provider : OpenAIModelProvider)

def invoke (req : ProviderRequest) : Prog Clients ProviderResponse := do
  let target ← ofExcept (prepare provider.repr req provider.modelCatalogue)
  retried provider.retryPolicy classifyProviderException
    (request (.createChatCompletion (buildChatCompletionRequest req target.2)))
    fun raw => parseChatCompletionResponse raw req.modelAlias target.1.provider

/-- The chunks of an established stream. -/
def streamChunks (stream : RawStream ChatCompletionChunk OpenAIError) :
    Except PyException ChunkStream :=
  .ok (iterChatCompletionStreamChunks (stream.failure.map (streamFailure classifyProviderException))
    stream.items {})

/-- `_stream`. -/
def stream (payload : ChatCompletionRequest) : Prog Clients ChunkStream :=
  startGenerator (retried provider.retryPolicy classifyProviderException
    (request (.streamChatCompletion payload))
    streamChunks)

def invokeStream (req : ProviderRequest) : Prog Clients ChunkStream := do
  let target ← ofExcept (prepare provider.repr req provider.modelCatalogue)
  provider.stream (buildChatCompletionStreamRequest req target.2)

end OpenAIModelProvider

/-! ## The composite provider -/

/-- Both adapters implement `StreamingModelProvider`. -/
inductive ProviderAdapter where
  | bedrock (provider : BedrockModelProvider)
  | openai (provider : OpenAIModelProvider)

namespace ProviderAdapter

def retryPolicy : ProviderAdapter → RetryPolicy
  | bedrock provider => provider.retryPolicy
  | openai provider => provider.retryPolicy

def invoke : ProviderAdapter → ProviderRequest → Prog Clients ProviderResponse
  | bedrock provider, req => provider.invoke req
  | openai provider, req => provider.invoke req

def invokeStream : ProviderAdapter → ProviderRequest → Prog Clients ChunkStream
  | bedrock provider, req => provider.invokeStream req
  | openai provider, req => provider.invokeStream req

end ProviderAdapter

structure CompositeModelProvider where
  modelCatalogue : ModelCatalogue
  providers : ProviderName → Option ProviderAdapter
  repr : String → String

namespace CompositeModelProvider

variable (composite : CompositeModelProvider)

/-- `_resolve_provider`. -/
def resolveProvider (req : ProviderRequest) : Except PyException ProviderAdapter := do
  let model ← resolveModel composite.repr req.modelAlias composite.modelCatalogue
  match composite.providers model.provider with
  | none => .error (.providerError ("No provider adapter is registered for provider " ++
      composite.repr model.provider.value ++ " (model_alias " ++ composite.repr model.modelAlias ++
        ").") .permanent)
  | some adapter => .ok adapter

def invoke (req : ProviderRequest) : Prog Clients ProviderResponse := do
  let adapter ← ofExcept (composite.resolveProvider req)
  adapter.invoke req

def invokeStream (req : ProviderRequest) : Prog Clients ChunkStream := do
  let adapter ← ofExcept (composite.resolveProvider req)
  adapter.invokeStream req

/-- How a port is served: the provider's by the adapters, every other one as it is. -/
def servePort : (port : Port) → Prog Clients (Ports.Reply port)
  | .invoke req => (composite.invoke req).attempt
  | .invokeStream req => (composite.invokeStream req).attempt
  | port => @Prog.tryPerform Clients (.application port)

/-- The use case with the composite provider for its model provider. -/
def serve {α : Type} (p : Prog Ports α) : Prog Clients α :=
  @Prog.interpret Ports α Clients id composite.servePort p

end CompositeModelProvider

end ModelRouter
