import ModelRouter.Adapters.Common
import ModelRouter.Domain.DynamicValues

/-!
# Requests and responses of the Converse API

* `buildConverseRequest` : the payload of `converse` and of `converse_stream`;
* `parseConverseResponse` : the response of a raw value of any shape;
* `iterConverseStreamEvents` : the chunks of a stream of raw events.

A missing field of a response is a `ProviderError`; what fails after the fields are read is the
exception of Python's or of pydantic's that it is.
-/

namespace ModelRouter
open Json

/-! ## Requests -/

structure InferenceConfig where
  maxTokens : Nat
  temperature : Option ℚ := none
  topP : Option ℚ := none
deriving DecidableEq, Repr

/-- A message with the texts of its content blocks. -/
structure ConverseMessage where
  role : Role
  content : List String
deriving DecidableEq, Repr

structure ConverseRequest where
  modelId : String
  messages : List ConverseMessage
  inferenceConfig : InferenceConfig
  system : Option (List String) := none
deriving DecidableEq, Repr

def buildConverseRequest (request : ProviderRequest) (targetModelId : String) :
    ConverseRequest where
  modelId := targetModelId
  messages := request.messages.map fun message =>
    { role := message.role, content := [message.content] }
  inferenceConfig :=
    { maxTokens := request.maxOutputTokens, temperature := request.temperature,
      topP := request.topP }
  system := match request.systemPrompt with
    | none => none
    | some systemPrompt => if systemPrompt = "" then none else some [systemPrompt]

/-! ## Responses -/

/-- `_STOP_REASON_MAP`. -/
def stopReasonMap : List (String × StopReason) :=
  [("end_turn", .endTurn), ("max_tokens", .maxTokens), ("stop_sequence", .stopSequence),
    ("tool_use", .toolUse),
    ("content_filtered", .contentFiltered), ("guardrail_intervened", .guardrailIntervened)]

def mapStopReason (raw : PyValue) : Except DynamicError StopReason := raw.getIn stopReasonMap .other

/-- An exception of a dynamic value that nothing catches. -/
def DynamicError.raised : DynamicError → PyException
  | jsonDecodeError => .other "JSONDecodeError"
  | recursionError => .other "RecursionError"
  | invalidOperation => .invalidOperation
  | assertionError => .assertionError ""
  | attributeError => .other "AttributeError"
  | typeError => .other "TypeError"
  | valueError => .other "ValueError"
  | validationError => .other "ValidationError"
  | keyError _ => .other "KeyError"

/-- `except (KeyError, TypeError)`. -/
def DynamicError.orMalformed : DynamicError → PyException
  | keyError _ | typeError => malformedResponse
  | x => x.raised

/-- The fields of a response: its text, its stop reason and the two token counts. -/
structure ConverseFields where
  text : Str
  stopReason : PyValue
  inputTokens : PyValue
  outputTokens : PyValue

/-- The texts of the content blocks that have one. -/
def blockTexts : List PyValue → Except DynamicError (List Str)
  | [] => .ok []
  | block :: blocks => do
    if ← block.contains "text" then
      let text ← (← block.getItem "text").joined
      let texts ← blockTexts blocks
      pure (text :: texts)
    else blockTexts blocks

def converseFields (raw : PyValue) : Except DynamicError ConverseFields := do
  let messageRaw ← (← raw.getItem "output").getItem "message"
  let contentBlocks ← messageRaw.getItem "content"
  let texts ← blockTexts (← contentBlocks.iter)
  let stopReason ← raw.getItem "stopReason"
  let usageRaw ← raw.getItem "usage"
  let inputTokens ← usageRaw.getItem "inputTokens"
  let outputTokens ← usageRaw.getItem "outputTokens"
  pure { text := Str.join texts, stopReason, inputTokens, outputTokens }

/-- The response of the fields that have been read. -/
def ConverseFields.response (pydantic : Pydantic) (modelAlias : String) (provider : ProviderName)
    (fields : ConverseFields) : Except DynamicError ProviderResponse := do
  let content ← validated (Pydantic.str (.string fields.text))
  let stopReason ← mapStopReason fields.stopReason
  let usage ← validated (pydantic.usage fields.inputTokens fields.outputTokens)
  pure { modelAlias, provider, message := ⟨.assistant, content⟩, stopReason, usage }

def parseConverseResponse (pydantic : Pydantic) (raw : PyValue) (modelAlias : String)
    (provider : ProviderName) :
    Except PyException ProviderResponse := do
  let fields ← (converseFields raw).mapError DynamicError.orMalformed
  (fields.response pydantic modelAlias provider).mapError DynamicError.raised

/-! ## Streams -/

/-- A stream of the SDK's: its items, then its end, or an exception of the SDK's or another one. -/
structure RawStream (ι ε : Type) where
  items : List ι
  failure : Option (ε ⊕ PyException) := none

/-- What the events of a stream have supplied besides text. -/
structure ConverseTotals where
  stopReason : PyValue := .null
  inputTokens : PyValue := .null
  outputTokens : PyValue := .null

/-- The chunk of an event, if it has text, and the totals after it. -/
def converseEvent (totals : ConverseTotals) (event : PyValue) :
    Except DynamicError (Option ProviderResponseChunk × ConverseTotals) := do
  if ← event.contains "contentBlockDelta" then
    let delta ← (← event.getItem "contentBlockDelta").get "delta" (.object [])
    let text ← delta.get "text"
    if text.truthy then
      let deltaText ← validated (Pydantic.str text)
      pure (some { deltaText }, totals)
    else pure (none, totals)
  else if ← event.contains "messageStop" then
    let stopReason ← (← event.getItem "messageStop").getItem "stopReason"
    pure (none, { totals with stopReason })
  else if ← event.contains "metadata" then
    match ← (← event.getItem "metadata").get "usage" with
    | .null => pure (none, totals)
    | usageRaw =>
      let inputTokens ← usageRaw.getItem "inputTokens"
      let outputTokens ← usageRaw.getItem "outputTokens"
      pure (none, { totals with inputTokens, outputTokens })
  else pure (none, totals)

section Event
open PyValue
variable {totals : ConverseTotals} {members : List (Str × PyValue)}

theorem converseEvent_delta {block delta : List (Str × PyValue)}
    (h : lookup "contentBlockDelta" members = some (.object block))
    (hdelta : (lookup "delta" block).getD (.object []) = .object delta) :
    converseEvent totals (.object members) =
      if truthy ((lookup "text" delta).getD .null) then
        (validated (Pydantic.str ((lookup "text" delta).getD .null))).map fun deltaText =>
          (some { deltaText }, totals)
      else .ok (none, totals) := by
  simp only [converseEvent, contains_object, h, Option.isSome_some, if_true, getItem_object h,
    get_object, hdelta, bind,
    Except.bind]
  split <;> rfl

theorem converseEvent_stop {stop : List (Str × PyValue)} {stopReason : PyValue}
    (hdelta : lookup "contentBlockDelta" members = none)
    (h : lookup "messageStop" members = some (.object stop))
    (hreason : lookup "stopReason" stop = some stopReason) :
    converseEvent totals (.object members) = .ok (none, { totals with stopReason }) := by
  simp only [converseEvent, contains_object, hdelta, h, Option.isSome_some, Option.isSome_none,
    Bool.false_eq_true, if_true,
    if_false, getItem_object h, getItem_object hreason, bind, Except.bind]
  rfl

theorem converseEvent_usage {metadata usageRaw : List (Str × PyValue)}
    {inputTokens outputTokens : PyValue} (hdelta : lookup "contentBlockDelta" members = none)
    (hstop : lookup "messageStop" members = none)
    (h : lookup "metadata" members = some (.object metadata))
    (husage : lookup "usage" metadata = some (.object usageRaw))
    (hinput : lookup "inputTokens" usageRaw = some inputTokens)
    (houtput : lookup "outputTokens" usageRaw = some outputTokens) :
    converseEvent totals (.object members) =
      .ok (none, { totals with inputTokens, outputTokens }) := by
  simp only [converseEvent, contains_object, hdelta, hstop, h, Option.isSome_some,
    Option.isSome_none, Bool.false_eq_true,
    if_true, if_false, getItem_object h, get_object, husage, Option.getD_some,
      getItem_object hinput,
    getItem_object houtput, bind, Except.bind]
  rfl

theorem converseEvent_withoutUsage {metadata : List (Str × PyValue)}
    (hdelta : lookup "contentBlockDelta" members = none)
    (hstop : lookup "messageStop" members = none)
    (h : lookup "metadata" members = some (.object metadata))
    (husage : (lookup "usage" metadata).getD .null = .null) :
    converseEvent totals (.object members) = .ok (none, totals) := by
  simp only [converseEvent, contains_object, hdelta, hstop, h, Option.isSome_some,
    Option.isSome_none, Bool.false_eq_true,
    if_true, if_false, getItem_object h, get_object, husage, bind, Except.bind]
  rfl

theorem converseEvent_other (hdelta : lookup "contentBlockDelta" members = none)
    (hstop : lookup "messageStop" members = none) (hmetadata : lookup "metadata" members = none) :
    converseEvent totals (.object members) = .ok (none, totals) := by
  simp only [converseEvent, contains_object, hdelta, hstop, hmetadata, Option.isSome_none,
    Bool.false_eq_true, if_false,
    bind, Except.bind]
  rfl

end Event

/-- The final chunk of a stream that has been exhausted. -/
def finalConverseChunk (pydantic : Pydantic) (totals : ConverseTotals) :
    Except PyException ProviderResponseChunk :=
  if totals.stopReason.isNull ∨ totals.inputTokens.isNull ∨ totals.outputTokens.isNull
    then .error malformedResponse
  else Except.mapError DynamicError.raised do
    let stopReason ← mapStopReason totals.stopReason
    let usage ← validated (pydantic.usage totals.inputTokens totals.outputTokens)
    pure { isFinal := true, stopReason := some stopReason, usage := some usage }

/-- The chunks of the events, and what the stream ends with. -/
def iterConverseStreamEvents (pydantic : Pydantic) (failure : Option PyException) :
    List PyValue → ConverseTotals → ChunkStream
  | [], totals => match failure with
    | some x => { chunks := [], failure := some x }
    | none => match finalConverseChunk pydantic totals with
      | .ok chunk => { chunks := [chunk] }
      | .error x => { chunks := [], failure := some x }
  | event :: events, totals => match converseEvent totals event with
    | .error x => { chunks := [], failure := some x.raised }
    | .ok (chunk, totals) =>
      let rest := iterConverseStreamEvents pydantic failure events totals
      { rest with chunks := chunk.toList ++ rest.chunks }

end ModelRouter
