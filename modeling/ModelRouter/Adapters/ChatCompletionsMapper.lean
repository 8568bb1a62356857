import ModelRouter.Adapters.ConverseMapper

/-!
# Requests and responses of the Chat Completions API

* `buildChatCompletionRequest`, `buildChatCompletionStreamRequest` : the payloads of
  `chat.completions.create`;
* `parseChatCompletionResponse` : the response of a `ChatCompletion` of the SDK's;
* `iterChatCompletionStreamChunks` : the chunks of a stream of `ChatCompletionChunk`s.
-/

namespace ModelRouter

/-! ## Requests -/

/-- `stream` and `streamOptions` are absent unless the response is streamed. -/
structure ChatCompletionRequest where
  model : String
  messages : List (Role × String)
  maxTokens : Nat
  temperature : Option ℚ := none
  topP : Option ℚ := none
  stream : Option Bool := none
  /-- `include_usage`. -/
  streamOptions : Option Bool := none
deriving DecidableEq, Repr

/-- The system prompt is the first message. -/
def buildChatCompletionRequest (request : ProviderRequest) (targetModel : String) :
    ChatCompletionRequest where
  model := targetModel
  messages :=
    (match request.systemPrompt with
      | none => []
      | some systemPrompt => if systemPrompt = "" then [] else [(.system, systemPrompt)]) ++
    request.messages.map fun message => (message.role, message.content)
  maxTokens := request.maxOutputTokens
  temperature := request.temperature
  topP := request.topP

def buildChatCompletionStreamRequest (request : ProviderRequest) (targetModel : String) :
    ChatCompletionRequest :=
  { buildChatCompletionRequest request targetModel with stream := some true, streamOptions := some true }

/-! ## Responses -/

/-- `_FINISH_REASON_MAP`. -/
def finishReasonMap : List (String × StopReason) :=
  [("stop", .endTurn), ("length", .maxTokens), ("tool_calls", .toolUse),
    ("function_call", .toolUse),
    ("content_filter", .contentFiltered)]

def mapFinishReason (raw : String) : StopReason :=
  ((finishReasonMap.find? (·.1 = raw)).map (·.2)).getD .other

structure CompletionUsage where
  promptTokens : Int
  completionTokens : Int
deriving DecidableEq, Repr

structure ChatChoice where
  content : Option String
  finishReason : String
deriving DecidableEq, Repr

structure ChatCompletion where
  choices : List ChatChoice
  usage : Option CompletionUsage
deriving DecidableEq, Repr

/-- The model `Usage`, which rejects negative counts. -/
def CompletionUsage.validate (usage : CompletionUsage) : Except PyException Usage :=
  if 0 ≤ usage.promptTokens ∧ 0 ≤ usage.completionTokens then
    .ok { inputTokens := usage.promptTokens.toNat, outputTokens := usage.completionTokens.toNat }
  else .error (.other "ValidationError")

def parseChatCompletionResponse (response : ChatCompletion) (modelAlias : String)
    (provider : ProviderName) :
    Except PyException ProviderResponse :=
  match response.choices, response.usage with
  | [], _ => .error malformedResponse
  | _ :: _, none => .error malformedResponse
  | choice :: _, some usage => do
    let usage ← usage.validate
    pure { modelAlias, provider, message := ⟨.assistant, choice.content.getD ""⟩
           stopReason := mapFinishReason choice.finishReason, usage }

/-! ## Streams -/

structure ChunkChoice where
  /-- `delta.content`. -/
  content : Option String := none
  finishReason : Option String := none
deriving DecidableEq, Repr

structure ChatCompletionChunk where
  choices : List ChunkChoice := []
  usage : Option CompletionUsage := none
deriving DecidableEq, Repr

/-- What the chunks of a stream have supplied besides text. -/
structure ChatTotals where
  finishReason : Option String := none
  usage : Option CompletionUsage := none

/-- The totals after one more chunk. -/
def ChatTotals.add (totals : ChatTotals) (chunk : ChatCompletionChunk) : ChatTotals where
  finishReason := chunk.choices.head?.bind (·.finishReason) <|> totals.finishReason
  usage := chunk.usage <|> totals.usage

/-- The text of a chunk, as a chunk of the response. -/
def chatChunk (chunk : ChatCompletionChunk) : Option ProviderResponseChunk :=
  match chunk.choices.head?.bind (·.content) with
  | none => none
  | some content => if content = "" then none else some { deltaText := content }

def finalChatChunk (totals : ChatTotals) : Except PyException ProviderResponseChunk :=
  match totals.finishReason, totals.usage with
  | some finishReason, some usage => do
    let usage ← usage.validate
    pure { isFinal := true, stopReason := some (mapFinishReason finishReason), usage := some usage }
  | _, _ => .error malformedResponse

/-- The chunks of the SDK's chunks, and what the stream ends with. -/
def iterChatCompletionStreamChunks (failure : Option PyException) :
    List ChatCompletionChunk → ChatTotals → ChunkStream
  | [], totals => match failure with
    | some x => { chunks := [], failure := some x }
    | none => match finalChatChunk totals with
      | .ok chunk => { chunks := [chunk] }
      | .error x => { chunks := [], failure := some x }
  | chunk :: chunks, totals =>
    let rest := iterChatCompletionStreamChunks failure chunks (totals.add chunk)
    { rest with chunks := (chatChunk chunk).toList ++ rest.chunks }

end ModelRouter
