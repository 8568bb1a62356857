import ModelRouter.Adapters.ChatCompletionsMapper

/-!
# Streamed and unary replies

A streamed reply arrives in parts, each with some text, a stop reason and a usage, or without.

* `streamed` : the chunks of the parts' texts, then one final chunk, if the parts have supplied a
  stop reason and a usage; a stream of raw items that stand for parts is read so (`simulate`);
* `ConversePart`, `ChatPart` : the part that an event, or a chunk of the SDK's, stands for;
* `ConverseReply`, `ChatReply` : what a unary response says;
* `streamed_agrees` : in both APIs a stream with the text, the stop reason and the usage of a unary
  response is read as the same, and one without a stop reason or a usage is malformed.
-/

namespace ModelRouter
open Json PyValue

/-! ## Parts -/

structure ReplyPart where
  text : String := ""
  stopReason : Option StopReason := none
  usage : Option Usage := none

/-- The last stop reason and the last usage. -/
structure ReplyTotals where
  stopReason : Option StopReason := none
  usage : Option Usage := none

def ReplyTotals.add (totals : ReplyTotals) (part : ReplyPart) : ReplyTotals where
  stopReason := part.stopReason <|> totals.stopReason
  usage := part.usage <|> totals.usage

def ReplyPart.chunk (part : ReplyPart) : Option ProviderResponseChunk :=
  if part.text = "" then none else some { deltaText := part.text }

def ReplyTotals.conclude : ReplyTotals → ChunkStream
  | { stopReason := some stopReason, usage := some usage } =>
    { chunks := [{ isFinal := true, stopReason := some stopReason, usage := some usage }] }
  | _ => { chunks := [], failure := some malformedResponse }

def streamed : ReplyTotals → List ReplyPart → ChunkStream
  | totals, [] => totals.conclude
  | totals, part :: parts =>
    let rest := streamed (totals.add part) parts
    { rest with chunks := part.chunk.toList ++ rest.chunks }

def totalOf (parts : List ReplyPart) : ReplyTotals := parts.foldl ReplyTotals.add {}

theorem streamed_eq (totals : ReplyTotals) (parts : List ReplyPart) : streamed totals parts =
    { (parts.foldl ReplyTotals.add totals).conclude with
      chunks := parts.filterMap (·.chunk) ++
        (parts.foldl ReplyTotals.add totals).conclude.chunks } := by
  induction parts generalizing totals with
  | nil => rfl
  | cons part parts ih =>
      rw [streamed, ih, List.foldl_cons, List.filterMap_cons]
      cases part.chunk <;> rfl

theorem join_chunks (parts : List ReplyPart) :
    String.join ((parts.filterMap (·.chunk)).map (·.deltaText)) =
      String.join (parts.map (·.text)) := by
  induction parts with
  | nil => rfl
  | cons part parts ih =>
      rw [List.filterMap_cons, List.map_cons, String.join_cons, ← ih]
      unfold ReplyPart.chunk
      split
      · rename_i hnone
        by_cases hempty : part.text = ""
        · rw [hempty, String.empty_append]
        · rw [if_neg hempty] at hnone
          cases hnone
      · rename_i chunk hsome
        by_cases hempty : part.text = ""
        · rw [if_pos hempty] at hsome
          cases hsome
        · rw [if_neg hempty] at hsome
          rw [List.map_cons, String.join_cons, ← Option.some.inj hsome]

theorem chunk_not_final {part : ReplyPart} {chunk : ProviderResponseChunk}
    (h : part.chunk = some chunk) :
    chunk.isFinal = false := by
  unfold ReplyPart.chunk at h
  split at h
  · cases h
  · rw [← Option.some.inj h]

/-- **A loop over raw items simulates the parts they stand for.** -/
theorem simulate {ι τ : Type} {iter : List ι → τ → ChunkStream} {Part : ι → ReplyPart → Prop}
    {Represents : τ → ReplyTotals → Prop}
    (hnil : ∀ t totals, Represents t totals → iter [] t = totals.conclude)
    (hcons : ∀ item items t totals part, Represents t totals → Part item part →
      ∃ t', Represents t' (totals.add part) ∧
      iter (item :: items) t =
        { iter items t' with chunks := part.chunk.toList ++ (iter items t').chunks })
    {items : List ι} {parts : List ReplyPart} {t : τ} {totals : ReplyTotals}
    (h : List.Forall₂ Part items parts)
    (hrep : Represents t totals) : iter items t = streamed totals parts := by
  induction h generalizing t totals with
  | nil => exact hnil t totals hrep
  | cons hpart _ ih =>
      obtain ⟨t', hrep', hiter⟩ := hcons _ _ t totals _ hrep hpart
      rw [hiter, ih hrep', streamed]

/-! ## Responses -/

/-- The stream gives the response: its chunks are texts, which concatenate to the response's, and
one final one. -/
def Agrees (stream : ChunkStream) (response : ProviderResponse) : Prop :=
  stream.failure = none ∧ ∃ chunks final, stream.chunks = chunks ++ [final] ∧
    (∀ chunk ∈ chunks, chunk.isFinal = false) ∧ final.isFinal = true ∧ final.deltaText = "" ∧
    String.join (stream.chunks.map (·.deltaText)) = response.message.content ∧
    final.stopReason = some response.stopReason ∧ final.usage = some response.usage

/-- The stream yields the texts and is malformed. -/
def Unfinished (stream : ChunkStream) (parts : List ReplyPart) : Prop :=
  stream = { chunks := parts.filterMap (·.chunk), failure := some malformedResponse }

theorem streamed_agree {parts : List ReplyPart} {response : ProviderResponse}
    (htext : String.join (parts.map (·.text)) = response.message.content)
    (htotal : totalOf parts =
      { stopReason := some response.stopReason, usage := some response.usage }) :
    Agrees (streamed {} parts) response := by
  rw [streamed_eq]
  unfold totalOf at htotal
  rw [htotal]
  refine ⟨rfl, parts.filterMap (·.chunk), _, rfl, fun chunk hmem => ?_, rfl, rfl, ?_, rfl, rfl⟩
  · obtain ⟨part, -, hchunk⟩ := List.mem_filterMap.mp hmem
    exact chunk_not_final hchunk
  · show String.join ((parts.filterMap ReplyPart.chunk ++ [_]).map ProviderResponseChunk.deltaText)
        = _
    rw [List.map_append, String.join_append, join_chunks, htext]
    simp

/-- What no part supplies is missing in the end. -/
theorem totalOf_missing {parts : List ReplyPart} :
    ((∀ part ∈ parts, part.stopReason = none) → (totalOf parts).stopReason = none) ∧
      ((∀ part ∈ parts, part.usage = none) → (totalOf parts).usage = none) := by
  have hfold : ∀ totals : ReplyTotals,
      ((∀ part ∈ parts, part.stopReason = none) → totals.stopReason = none →
        (parts.foldl ReplyTotals.add totals).stopReason = none) ∧
      ((∀ part ∈ parts, part.usage = none) → totals.usage = none →
        (parts.foldl ReplyTotals.add totals).usage = none) := by
    induction parts with
    | nil => exact fun totals => ⟨fun _ h => h, fun _ h => h⟩
    | cons part parts ih =>
        intro totals
        refine ⟨fun hall htotals => ?_, fun hall htotals => ?_⟩
        · apply (ih (totals.add part)).1 fun part hmem => hall part (List.mem_cons_of_mem _ hmem)
          rw [ReplyTotals.add, hall part List.mem_cons_self, htotals]
          rfl
        · apply (ih (totals.add part)).2 fun part hmem => hall part (List.mem_cons_of_mem _ hmem)
          rw [ReplyTotals.add, hall part List.mem_cons_self, htotals]
          rfl
  exact ⟨fun h => (hfold {}).1 h rfl, fun h => (hfold {}).2 h rfl⟩

theorem streamed_unfinished {parts : List ReplyPart}
    (hmissing : (∀ part ∈ parts, part.stopReason = none) ∨ (∀ part ∈ parts, part.usage = none)) :
    Unfinished (streamed {} parts) parts := by
  have htotal : (totalOf parts).stopReason = none ∨ (totalOf parts).usage = none :=
    hmissing.imp totalOf_missing.1 totalOf_missing.2
  unfold Unfinished
  rw [streamed_eq]
  unfold totalOf at htotal
  have hconclude : (parts.foldl ReplyTotals.add {}).conclude =
      { chunks := [], failure := some malformedResponse } := by
    unfold ReplyTotals.conclude
    split
    · rcases htotal with hnone | hnone <;> simp_all
    · rfl
  rw [hconclude, List.append_nil]

/-! ## The Converse API -/

section Converse
variable {pydantic : Pydantic}

/-- The stop reason of its name. -/
def stopReasonOf (raw : String) : StopReason :=
  ((stopReasonMap.find? (·.1 = raw)).map (·.2)).getD .other

theorem mapStopReason_text (raw : String) :
    mapStopReason (.string (.text raw)) = .ok (stopReasonOf raw) := rfl

/-- The token counts of a usage. -/
structure ConverseUsage (pydantic : Pydantic) (members : List (Str × PyValue))
    (inputTokens outputTokens : PyNumber) (usage : Usage) : Prop where
  input : lookup "inputTokens" members = some (.number inputTokens)
  output : lookup "outputTokens" members = some (.number outputTokens)
  valid : pydantic.usage (.number inputTokens) (.number outputTokens) = some usage

/-- A content block with a text, or of another kind. -/
inductive ContentBlock : PyValue → String → Prop
  | text {members : List (Str × PyValue)} {text : String}
      (h : lookup "text" members = some (.string (.text text))) :
      ContentBlock (.object members) text
  | other {members : List (Str × PyValue)} (h : lookup "text" members = none) :
    ContentBlock (.object members) ""

/-- A response of the API: the texts of its blocks, its stop reason and its usage. -/
inductive ConverseReply (pydantic : Pydantic) : PyValue → List String → StopReason → Usage → Prop
  | mk {members output message usageRaw : List (Str × PyValue)} {blocks : List PyValue}
      {texts : List String}
      {stopReasonRaw : String} {inputTokens outputTokens : PyNumber} {usage : Usage}
      (houtput : lookup "output" members = some (.object output))
      (hmessage : lookup "message" output = some (.object message))
      (hcontent : lookup "content" message = some (.array blocks))
      (hblocks : List.Forall₂ ContentBlock blocks texts)
      (hstop : lookup "stopReason" members = some (.string (.text stopReasonRaw)))
      (husage : lookup "usage" members = some (.object usageRaw))
      (hcounts : ConverseUsage pydantic usageRaw inputTokens outputTokens usage) :
      ConverseReply pydantic (.object members) texts (stopReasonOf stopReasonRaw) usage

/-- The text of a `contentBlockDelta`, which may be absent. -/
inductive DeltaText : List (Str × PyValue) → String → Prop
  | text {block delta : List (Str × PyValue)} {text : String}
      (hdelta : lookup "delta" block = some (.object delta))
      (htext : lookup "text" delta = some (.string (.text text))) : DeltaText block text
  | withoutText {block delta : List (Str × PyValue)}
      (hdelta : lookup "delta" block = some (.object delta))
      (htext : lookup "text" delta = none ∨ lookup "text" delta = some .null) : DeltaText block ""
  | withoutDelta {block : List (Str × PyValue)} (hdelta : lookup "delta" block = none) :
    DeltaText block ""

/-- The part that an event of the API stands for. -/
inductive ConversePart (pydantic : Pydantic) : PyValue → ReplyPart → Prop
  | text {members block : List (Str × PyValue)} {text : String}
      (h : lookup "contentBlockDelta" members = some (.object block))
      (htext : DeltaText block text) :
      ConversePart pydantic (.object members) { text }
  | stopReason {members stop : List (Str × PyValue)} {raw : String}
      (hdelta : lookup "contentBlockDelta" members = none)
      (h : lookup "messageStop" members = some (.object stop))
      (hraw : lookup "stopReason" stop = some (.string (.text raw))) :
      ConversePart pydantic (.object members) { stopReason := some (stopReasonOf raw) }
  | usage {members metadata usageRaw : List (Str × PyValue)} {inputTokens outputTokens : PyNumber}
      {usage : Usage} (hdelta : lookup "contentBlockDelta" members = none)
      (hstop : lookup "messageStop" members = none)
      (h : lookup "metadata" members = some (.object metadata))
      (husage : lookup "usage" metadata = some (.object usageRaw))
      (hcounts : ConverseUsage pydantic usageRaw inputTokens outputTokens usage) :
      ConversePart pydantic (.object members) { usage := some usage }
  | withoutUsage {members metadata : List (Str × PyValue)}
      (hdelta : lookup "contentBlockDelta" members = none)
      (hstop : lookup "messageStop" members = none)
      (h : lookup "metadata" members = some (.object metadata))
      (husage : lookup "usage" metadata = none ∨ lookup "usage" metadata = some .null) :
      ConversePart pydantic (.object members) {}
  | other {members : List (Str × PyValue)} (hdelta : lookup "contentBlockDelta" members = none)
      (hstop : lookup "messageStop" members = none) (hmetadata : lookup "metadata" members = none) :
      ConversePart pydantic (.object members) {}

theorem blockTexts_of_blocks {blocks : List PyValue} {texts : List String}
    (h : List.Forall₂ ContentBlock blocks texts) :
    ∃ strings, blockTexts blocks = .ok strings ∧ Str.join strings = .text (String.join texts) := by
  induction h with
  | nil => exact ⟨[], rfl, by simp [Str.join]⟩
  | @cons block text blocks texts hblock _ ih =>
      obtain ⟨strings, hstrings, hjoin⟩ := ih
      cases hblock with
      | text h =>
          refine ⟨.text text :: strings, ?_, ?_⟩
          · simp only [blockTexts, contains_object, h, Option.isSome_some, if_true,
              getItem_object h, joined,
              hstrings, bind, Except.bind, pure, Except.pure]
          · simp only [Str.join, hjoin, String.join_cons]
      | other h =>
          refine ⟨strings, ?_, ?_⟩
          · rw [blockTexts, contains_object, h]
            exact hstrings
          · rw [hjoin, String.join_cons, String.empty_append]

theorem parseConverseResponse_reply {raw : PyValue} {texts : List String} {stopReason : StopReason}
    {usage : Usage} (h : ConverseReply pydantic raw texts stopReason usage) (modelAlias : String)
    (provider : ProviderName) :
    parseConverseResponse pydantic raw modelAlias provider =
      .ok { modelAlias, provider, message := ⟨.assistant, String.join texts⟩, stopReason, usage } := by
  obtain ⟨houtput, hmessage, hcontent, hblocks, hstop, husage, hcounts⟩ := h
  obtain ⟨strings, hstrings, hjoin⟩ := blockTexts_of_blocks hblocks
  simp only [parseConverseResponse, converseFields, getItem_object houtput, getItem_object hmessage,
    getItem_object hcontent, iter, hstrings, getItem_object hstop, getItem_object husage,
    getItem_object hcounts.input, getItem_object hcounts.output, bind, Except.bind, pure,
      Except.pure, Except.mapError,
    ConverseFields.response, hjoin, Pydantic.str, validated, mapStopReason_text, hcounts.valid]

/-- The raw totals of a stream stand for what they are mapped to. -/
inductive ConverseStopReason : PyValue → Option StopReason → Prop
  | none : ConverseStopReason .null none
  | some (raw : String) : ConverseStopReason (.string (.text raw)) (some (stopReasonOf raw))

inductive ConverseCounts (pydantic : Pydantic) : PyValue → PyValue → Option Usage → Prop
  | none : ConverseCounts pydantic .null .null none
  | some {inputTokens outputTokens : PyNumber} {usage : Usage}
      (h : pydantic.usage (.number inputTokens) (.number outputTokens) = some usage) :
      ConverseCounts pydantic (.number inputTokens) (.number outputTokens) (some usage)

structure ConverseTotals.Represents (pydantic : Pydantic) (raw : ConverseTotals)
    (totals : ReplyTotals) : Prop where
  stopReason : ConverseStopReason raw.stopReason totals.stopReason
  counts : ConverseCounts pydantic raw.inputTokens raw.outputTokens totals.usage

theorem iterConverse_nil {raw : ConverseTotals} {totals : ReplyTotals}
    (h : raw.Represents pydantic totals) :
    iterConverseStreamEvents pydantic none [] raw = totals.conclude := by
  obtain ⟨stopReasonRaw, inputTokens, outputTokens⟩ := raw
  obtain ⟨stopReason, usage⟩ := totals
  obtain ⟨hstop, hcounts⟩ := h
  cases hstop with
  | none => rfl
  | some raw =>
      cases hcounts with
      | none => rfl
      | some husage =>
          simp only [iterConverseStreamEvents, finalConverseChunk, Value.isNull, Bool.false_eq_true,
            or_self, if_false,
            mapStopReason_text, validated, husage, bind, Except.bind, pure, Except.pure,
              Except.mapError]
          rfl

/-- An event that stands for a part yields its text, and adds to the totals what it supplies. -/
theorem converseEvent_part {event : PyValue} {part : ReplyPart} {raw : ConverseTotals}
    {totals : ReplyTotals}
    (hrep : raw.Represents pydantic totals) (hpart : ConversePart pydantic event part) :
    ∃ raw' : ConverseTotals, raw'.Represents pydantic (totals.add part) ∧
      converseEvent raw event = .ok (part.chunk, raw') := by
  cases hpart with
  | @text _ _ text h hdeltaText =>
      refine ⟨raw, hrep, ?_⟩
      cases hdeltaText with
      | text hdelta htext =>
          rw [converseEvent_delta h (by rw [hdelta, Option.getD_some]), htext]
          by_cases hempty : text = "" <;>
            simp [truthy, hempty, ReplyPart.chunk, Pydantic.str, validated, Except.map]
      | withoutText hdelta htext =>
          rw [converseEvent_delta h (by rw [hdelta, Option.getD_some])]
          rcases htext with htext | htext <;> rw [htext] <;> rfl
      | withoutDelta hdelta =>
          rw [converseEvent_delta h (by rw [hdelta, Option.getD_none])]
          rfl
  | @stopReason _ _ text hdelta h hraw =>
      exact ⟨{ raw with stopReason := .string (.text text) }, ⟨.some text, hrep.counts⟩,
        converseEvent_stop hdelta h hraw⟩
  | @usage _ _ _ inputTokens outputTokens _ hdelta hstop h husage hcounts =>
      exact ⟨{ raw with inputTokens := .number inputTokens, outputTokens := .number outputTokens },
        ⟨hrep.stopReason, .some hcounts.valid⟩,
          converseEvent_usage hdelta hstop h husage hcounts.input hcounts.output⟩
  | withoutUsage hdelta hstop h husage =>
      refine ⟨raw, hrep, converseEvent_withoutUsage hdelta hstop h ?_⟩
      rcases husage with husage | husage <;> rw [husage] <;> rfl
  | other hdelta hstop hmetadata => exact ⟨raw, hrep, converseEvent_other hdelta hstop hmetadata⟩

/-- **A stream of events is read as the parts they stand for.** -/
theorem iterConverse_streamed {events : List PyValue} {parts : List ReplyPart}
    (h : List.Forall₂ (ConversePart pydantic) events parts) :
    iterConverseStreamEvents pydantic none events {} = streamed {} parts := by
  refine simulate (fun raw totals hrep => iterConverse_nil hrep) ?_ h ⟨.none, .none⟩
  intro event events raw totals part hrep hpart
  obtain ⟨raw', hrep', hevent⟩ := converseEvent_part hrep hpart
  refine ⟨raw', hrep', ?_⟩
  rw [iterConverseStreamEvents, hevent]

end Converse

/-! ## The Chat Completions API -/

/-- A response of the API: its text, its stop reason and its usage. -/
inductive ChatReply : ChatCompletion → String → StopReason → Usage → Prop
  | mk {choice : ChatChoice} {choices : List ChatChoice} {counts : CompletionUsage} {usage : Usage}
      (hcounts : counts.validate = .ok usage) :
      ChatReply { choices := choice :: choices, usage := some counts } (choice.content.getD "")
        (mapFinishReason choice.finishReason) usage

inductive ChatUsage : Option CompletionUsage → Option Usage → Prop
  | none : ChatUsage none none
  | some {counts : CompletionUsage} {usage : Usage} (h : counts.validate = .ok usage) :
    ChatUsage (some counts) (some usage)

/-- The part that a chunk of the SDK's stands for. -/
structure ChatPart (chunk : ChatCompletionChunk) (part : ReplyPart) : Prop where
  text : part.text = (chunk.choices.head?.bind (·.content)).getD ""
  stopReason : part.stopReason = (chunk.choices.head?.bind (·.finishReason)).map mapFinishReason
  usage : ChatUsage chunk.usage part.usage

structure ChatTotals.Represents (raw : ChatTotals) (totals : ReplyTotals) : Prop where
  stopReason : totals.stopReason = raw.finishReason.map mapFinishReason
  usage : ChatUsage raw.usage totals.usage

theorem parseChatCompletionResponse_reply {response : ChatCompletion} {text : String}
    {stopReason : StopReason}
    {usage : Usage} (h : ChatReply response text stopReason usage) (modelAlias : String)
    (provider : ProviderName) :
    parseChatCompletionResponse response modelAlias provider =
      .ok { modelAlias, provider, message := ⟨.assistant, text⟩, stopReason, usage } := by
  obtain ⟨hcounts⟩ := h
  simp only [parseChatCompletionResponse, hcounts]
  rfl

theorem chatChunk_part {chunk : ChatCompletionChunk} {part : ReplyPart} (h : ChatPart chunk part) :
    chatChunk chunk = part.chunk := by
  unfold chatChunk ReplyPart.chunk
  rw [h.text]
  cases chunk.choices.head?.bind (·.content) <;> rfl

theorem represents_add {raw : ChatTotals} {totals : ReplyTotals} {chunk : ChatCompletionChunk}
    {part : ReplyPart} (hrep : raw.Represents totals) (hpart : ChatPart chunk part) :
      (raw.add chunk).Represents (totals.add part) where
  stopReason := by
    show (part.stopReason <|> totals.stopReason) = (_ <|> raw.finishReason).map mapFinishReason
    rw [hpart.stopReason, hrep.stopReason]
    cases chunk.choices.head?.bind (·.finishReason) <;> rfl
  usage := by
    have hown := hpart.usage
    show ChatUsage (chunk.usage <|> raw.usage) (part.usage <|> totals.usage)
    generalize chunk.usage = counts at hown
    generalize part.usage = usage at hown
    cases hown with
    | none => exact hrep.usage
    | some h => exact ChatUsage.some h

theorem iterChat_nil {raw : ChatTotals} {totals : ReplyTotals} (h : raw.Represents totals) :
    iterChatCompletionStreamChunks none [] raw = totals.conclude := by
  obtain ⟨finishReason, counts⟩ := raw
  obtain ⟨stopReason, usage⟩ := totals
  obtain ⟨hstop, husage⟩ := h
  obtain rfl : stopReason = finishReason.map mapFinishReason := hstop
  cases husage with
  | none => cases finishReason <;> rfl
  | some husage =>
      cases finishReason with
      | none => rfl
      | some raw =>
          simp only [iterChatCompletionStreamChunks, finalChatChunk, husage]
          rfl

/-- **A stream of chunks is read as the parts they stand for.** -/
theorem iterChat_streamed {chunks : List ChatCompletionChunk} {parts : List ReplyPart}
    (h : List.Forall₂ ChatPart chunks parts) :
      iterChatCompletionStreamChunks none chunks {} = streamed {} parts := by
  refine simulate (fun raw totals hrep => iterChat_nil hrep) ?_ h ⟨rfl, .none⟩
  intro chunk chunks raw totals part hrep hpart
  refine ⟨raw.add chunk, represents_add hrep hpart, ?_⟩
  rw [iterChatCompletionStreamChunks, chatChunk_part hpart]

/-! ## Both APIs -/

/-- **Streamed and unary replies agree.** In both APIs, a stream whose texts concatenate to those of
a unary response, and whose last stop reason and last usage are the response's, is read as that
response: texts, then one final chunk. Without a stop reason or a usage it is read as its texts,
then a permanent error. -/
theorem streamed_agrees (pydantic : Pydantic) (modelAlias : String) (provider : ProviderName)
    (parts : List ReplyPart) :
    (∀ events, List.Forall₂ (ConversePart pydantic) events parts →
      (∀ raw texts stopReason usage, ConverseReply pydantic raw texts stopReason usage →
        String.join (parts.map (·.text)) = String.join texts →
        totalOf parts = { stopReason := some stopReason, usage := some usage } →
          ∃ response, parseConverseResponse pydantic raw modelAlias provider = .ok response ∧
            Agrees (iterConverseStreamEvents pydantic none events {}) response) ∧
      ((∀ part ∈ parts, part.stopReason = none) ∨ (∀ part ∈ parts, part.usage = none) →
        Unfinished (iterConverseStreamEvents pydantic none events {}) parts)) ∧
    ∀ chunks, List.Forall₂ ChatPart chunks parts →
      (∀ completion text stopReason usage, ChatReply completion text stopReason usage →
        String.join (parts.map (·.text)) = text →
        totalOf parts = { stopReason := some stopReason, usage := some usage } →
          ∃ response, parseChatCompletionResponse completion modelAlias provider = .ok response ∧
            Agrees (iterChatCompletionStreamChunks none chunks {}) response) ∧
      ((∀ part ∈ parts, part.stopReason = none) ∨ (∀ part ∈ parts, part.usage = none) →
        Unfinished (iterChatCompletionStreamChunks none chunks {}) parts) := by
  refine ⟨fun events hevents => ?_, fun chunks hchunks => ?_⟩
  · rw [iterConverse_streamed hevents]
    refine ⟨fun raw texts stopReason usage hreply htext htotal => ?_, streamed_unfinished⟩
    exact ⟨_, parseConverseResponse_reply hreply modelAlias provider, streamed_agree htext htotal⟩
  · rw [iterChat_streamed hchunks]
    refine ⟨fun completion text stopReason usage hreply htext htotal => ?_, streamed_unfinished⟩
    exact ⟨_, parseChatCompletionResponse_reply hreply modelAlias provider,
      streamed_agree htext htotal⟩

namespace Scenario

def member (key : String) (value : PyValue) : Str × PyValue := (.text key, value)

def text (s : String) : PyValue := .string (.text s)

def usageRaw : PyValue :=
  .object [member "inputTokens" (.number (.int 5)), member "outputTokens" (.number (.int 2))]

/-- The reply `Hello`, with a block of another kind. -/
def replyRaw : PyValue :=
  .object [member "output" (.object [member "message" (.object [member "content"
      (.array [.object [member "reasoningContent" .null],
        .object [member "text" (text "Hello")]])])]),
    member "stopReason" (text "end_turn"), member "usage" usageRaw]

def deltaEvent (delta : List (Str × PyValue)) : PyValue :=
  .object [member "contentBlockDelta" (.object [member "delta" (.object delta)])]

/-- The same reply, cut into two texts. -/
def replyEvents : List PyValue :=
  [.object [member "messageStart" .null], deltaEvent [member "text" (text "Hel")], deltaEvent [],
    deltaEvent [member "text" (text "lo")],
    .object [member "messageStop" (.object [member "stopReason" (text "end_turn")])],
    .object [member "metadata" (.object [member "usage" usageRaw])]]

def replyParts : List ReplyPart :=
  [{}, { text := "Hel" }, {}, { text := "lo" }, { stopReason := some (stopReasonOf "end_turn") },
    { usage := some ⟨5, 2⟩ }]

theorem lookup_member (key : String) (value : PyValue) (members : List (Str × PyValue)) :
    lookup key (member key value :: members) = some value := by
  simp [lookup, member]

theorem lookup_other {key other : String} {value : PyValue} (h : other ≠ key)
    (members : List (Str × PyValue)) :
    lookup key (member other value :: members) = lookup key members := by
  simp [lookup, member, h]

theorem replyUsage : ∃ members, usageRaw = .object members ∧
    ConverseUsage .strict members (.int 5) (.int 2) ⟨5, 2⟩ :=
  ⟨_, rfl, lookup_member _ _ _, (lookup_other (by decide) _).trans (lookup_member _ _ _), by decide⟩

theorem replyRaw_reply :
    ConverseReply .strict replyRaw ["", "Hello"] (stopReasonOf "end_turn") ⟨5, 2⟩ := by
  obtain ⟨members, husage, hcounts⟩ := replyUsage
  unfold replyRaw
  rw [husage]
  refine .mk (lookup_member _ _ _) (lookup_member _ _ _) (lookup_member _ _ _)
    (.cons ?_ (.cons ?_ .nil)) ?_ ?_ hcounts
  · exact .other (lookup_other (by decide) _)
  · exact .text (lookup_member _ _ _)
  · exact (lookup_other (by decide) _).trans (lookup_member _ _ _)
  · exact (lookup_other (by decide) _).trans
      ((lookup_other (by decide) _).trans (lookup_member _ _ _))

theorem replyEvents_parts : List.Forall₂ (ConversePart .strict) replyEvents replyParts := by
  obtain ⟨members, husage, hcounts⟩ := replyUsage
  unfold replyEvents
  rw [husage]
  refine .cons ?_ (.cons ?_ (.cons ?_ (.cons ?_ (.cons ?_ (.cons ?_ .nil)))))
  · exact .other (lookup_other (by decide) _) (lookup_other (by decide) _)
      (lookup_other (by decide) _)
  · exact .text (lookup_member _ _ _) (.text (lookup_member _ _ _) (lookup_member _ _ _))
  · exact .text (lookup_member _ _ _) (.withoutText (lookup_member _ _ _) (Or.inl rfl))
  · exact .text (lookup_member _ _ _) (.text (lookup_member _ _ _) (lookup_member _ _ _))
  · exact .stopReason (lookup_other (by decide) _) (lookup_member _ _ _) (lookup_member _ _ _)
  · exact .usage (lookup_other (by decide) _) (lookup_other (by decide) _) (lookup_member _ _ _)
      (lookup_member _ _ _) hcounts

/-- The same reply of the other API. -/
def replyCompletion : ChatCompletion where
  choices := [{ content := some "Hello", finishReason := "stop" }]
  usage := some ⟨5, 2⟩

/-- Its chunks; the last one has no choices. -/
def replyChunks : List ChatCompletionChunk :=
  [{ choices := [{ content := some "Hel" }] }, { choices := [{ content := some "lo" }] },
    { choices := [{ finishReason := some "stop" }] }, { usage := some ⟨5, 2⟩ }]

def chunkParts : List ReplyPart :=
  [{ text := "Hel" }, { text := "lo" }, { stopReason := some (mapFinishReason "stop") },
    { usage := some ⟨5, 2⟩ }]

theorem replyChunks_parts : List.Forall₂ ChatPart replyChunks chunkParts :=
  .cons ⟨rfl, rfl, .none⟩ (.cons ⟨rfl, rfl, .none⟩
    (.cons ⟨rfl, rfl, .none⟩ (.cons ⟨rfl, rfl, .some rfl⟩ .nil)))

/-- The events and the chunks give the reply. -/
theorem reply_agrees :
    (∃ response, parseConverseResponse .strict replyRaw "alias" .bedrock = .ok response ∧
      Agrees (iterConverseStreamEvents .strict none replyEvents {}) response) ∧
    ∃ response, parseChatCompletionResponse replyCompletion "alias" .openai = .ok response ∧
      Agrees (iterChatCompletionStreamChunks none replyChunks {}) response :=
  ⟨((streamed_agrees .strict "alias" .bedrock replyParts).1 replyEvents replyEvents_parts).1
    replyRaw _ _ _ replyRaw_reply
    (by decide +kernel) rfl,
    ((streamed_agrees .strict "alias" .openai chunkParts).2 replyChunks replyChunks_parts).1
      replyCompletion _ _ _
      (.mk rfl) (by decide +kernel) rfl⟩

end Scenario

end ModelRouter
