import ModelRouter.Adapters.ChatCompletionsMapper

/-!
# Conversations on the wire

A request is a conversation, with its system prompt first. Both payloads of a request carry the same
conversation: the request's, less an empty system prompt.

* `Faithful` : the system texts and the ordered turns of a conversation are those of another one;
* `ConverseRequest.WellFormed` : the roles that the Converse API has for a message;
* `conversation_faithful` : the Converse payload is well-formed and faithful exactly where no
  message is a system text and the system prompt is not empty.
-/

namespace ModelRouter

/-- Who says what, in order. -/
abbrev Conversation := List (Role × String)

namespace Conversation

def systemTexts (conversation : Conversation) : List String :=
  (conversation.filter (·.1 = .system)).map (·.2)

/-- The turns of users and assistants. -/
def turns (conversation : Conversation) : Conversation := conversation.filter (·.1 ≠ .system)

theorem systemTexts_append (first second : Conversation) :
    systemTexts (first ++ second) = systemTexts first ++ systemTexts second := by
  simp only [systemTexts, List.filter_append, List.map_append]

theorem turns_append (first second : Conversation) :
    turns (first ++ second) = turns first ++ turns second := by
  simp only [turns, List.filter_append]

/-- A system prompt, as the first of a conversation. -/
def prompt (systemPrompt : Option String) : Conversation := systemPrompt.toList.map (Role.system, ·)

theorem systemTexts_prompt (systemPrompt : Option String) :
    systemTexts (prompt systemPrompt) = systemPrompt.toList := by
  cases systemPrompt <;> rfl

theorem turns_prompt (systemPrompt : Option String) : turns (prompt systemPrompt) = [] := by
  cases systemPrompt <;> rfl

end Conversation

open Conversation

/-- What can be recovered of a conversation: its system texts, and its turns in order. -/
def Faithful (sent received : Conversation) : Prop :=
  systemTexts received = systemTexts sent ∧ turns received = turns sent

/-! ## Requests and payloads -/

def spoken (messages : List Message) : Conversation :=
  messages.map fun message => (message.role, message.content)

def ProviderRequest.conversation (request : ProviderRequest) : Conversation :=
  prompt request.systemPrompt ++ spoken request.messages

/-- All texts of the payload, from whichever field. -/
def ConverseRequest.conversation (payload : ConverseRequest) : Conversation :=
  (payload.system.getD []).map (Role.system, ·) ++
    payload.messages.map fun message => (message.role, String.join message.content)

def ConverseRequest.WellFormed (payload : ConverseRequest) : Prop :=
  ∀ message ∈ payload.messages, message.role = .user ∨ message.role = .assistant

variable (request : ProviderRequest) (target : String)

theorem chat_conversation : (buildChatCompletionRequest request target).messages =
    prompt (request.systemPrompt.filter (· ≠ "")) ++ spoken request.messages := by
  unfold buildChatCompletionRequest
  cases request.systemPrompt with
  | none => rfl
  | some systemPrompt =>
      by_cases hempty : systemPrompt = "" <;> simp [hempty, prompt, spoken, Option.filter]

/-- Both payloads carry the same conversation. -/
theorem converse_conversation :
    (buildConverseRequest request target).conversation =
      (buildChatCompletionRequest request target).messages := by
  rw [chat_conversation]
  unfold ConverseRequest.conversation buildConverseRequest
  congr 1
  · cases request.systemPrompt with
    | none => rfl
    | some systemPrompt =>
        by_cases hempty : systemPrompt = "" <;> simp [hempty, prompt, Option.filter]
  · simp [spoken]

theorem prompt_filter_iff (systemPrompt : Option String) :
    (systemPrompt.filter (· ≠ "")).toList = systemPrompt.toList ↔ systemPrompt ≠ some "" := by
  cases systemPrompt with
  | none => simp
  | some systemPrompt => by_cases hempty : systemPrompt = "" <;> simp [hempty]

/-- The conversation is recovered unless the system prompt is empty. -/
theorem faithful_iff : Faithful request.conversation
    (buildConverseRequest request target).conversation ↔
    request.systemPrompt ≠ some "" := by
  unfold Faithful ProviderRequest.conversation
  rw [converse_conversation, chat_conversation, systemTexts_append, systemTexts_append,
    turns_append, turns_append,
    turns_prompt, turns_prompt, systemTexts_prompt, systemTexts_prompt, List.append_left_inj,
      prompt_filter_iff]
  exact and_iff_left rfl

theorem wellFormed_iff : (buildConverseRequest request target).WellFormed ↔
    ∀ message ∈ request.messages, message.role ≠ .system := by
  unfold ConverseRequest.WellFormed buildConverseRequest
  rw [List.forall_mem_map]
  refine forall₂_congr fun message _ => ?_
  cases message.role <;> simp

/-- **Conversations.** The Converse payload of a request is well-formed, and the request's system
texts and turns are recovered from it, exactly where no message is a system text and the system
prompt is not empty. The messages of the Chat Completions payload are the conversation itself
exactly where the system prompt is not empty. -/
theorem conversation_faithful :
    ((buildConverseRequest request target).WellFormed ∧
        Faithful request.conversation (buildConverseRequest request target).conversation ↔
      (∀ message ∈ request.messages, message.role ≠ .system) ∧ request.systemPrompt ≠ some "") ∧
    ((buildChatCompletionRequest request target).messages = request.conversation ↔
      request.systemPrompt ≠ some "") := by
  refine ⟨and_congr (wellFormed_iff request target) (faithful_iff request target), ?_⟩
  unfold ProviderRequest.conversation
  rw [chat_conversation, List.append_left_inj, ← prompt_filter_iff]
  exact List.map_inj_right fun _ _ h => (Prod.mk.inj h).2

namespace Scenario

/-- A question after a system text among the messages. -/
def instructed : ProviderRequest where
  modelAlias := "alias"
  messages := [⟨.system, "Be brief."⟩, ⟨.user, "Hello"⟩]
  maxOutputTokens := 16
  temperature := some 0
  topP := some 1
  messages_ne := List.cons_ne_nil _ _
  maxOutputTokens_pos := Nat.succ_pos 15

/-- Its Converse payload has a message with the role of the system. -/
theorem instructed_illegal : ¬ ((buildConverseRequest instructed "target").WellFormed ∧
    Faithful instructed.conversation (buildConverseRequest instructed "target").conversation) := by
  rintro ⟨hlegal, -⟩
  rcases hlegal ⟨.system, ["Be brief."]⟩ (by decide) with hrole | hrole <;> cases hrole

end Scenario

end ModelRouter
