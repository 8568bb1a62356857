import ModelRouter.Domain.Policy
import ModelRouter.Lib.DecimalText
import ModelRouter.Lib.JsonText

/-!
# The request hash

`computeRequestHash` : `compute_request_hash` of `domain/idempotency.py`, the SHA-256 of the
canonical text of a request whose integers have a text. The canonical text separates what it is made
of: the application, the messages in their order and the requirements (`canonicalText_eq_iff`).
-/

namespace ModelRouter
open Arith Json

/-! ## The payload -/

/-- `model_dump(mode="json")`. -/
def RoutingRequirements.modelDump (requirements : RoutingRequirements) : List (Str × Value Int) :=
  let text (value : String) : Value Int := .string (.text value)
  [(.text "capability", text requirements.capability),
    (.text "quality_tier", requirements.qualityTier.elim .null fun tier => text tier.value),
    (.text "maximum_estimated_cost_usd", requirements.maximumEstimatedCostUsd.elim .null fun cost =>
      text cost.str),
    (.text "maximum_output_tokens", requirements.maximumOutputTokens.elim .null fun tokens =>
      .number tokens),
    (.text "latency_preference", requirements.latencyPreference.elim .null fun preference =>
      text preference.value),
    (.text "requires_tool_use", .bool requirements.requiresToolUse),
    (.text "requires_structured_output", .bool requirements.requiresStructuredOutput)]

def messagePayload (message : Message) : List (Str × Value Int) :=
  [(.text "role", .string (.text message.role.value)),
    (.text "content", .string (.text message.content))]

def requestPayload (request : InferenceRequest) : List (Str × Value Int) :=
  [(.text "application_id", .string (.text request.applicationId)),
    (.text "messages", .array (request.messages.map fun message =>
      .object (messagePayload message))),
    (.text "requirements", .object request.requirements.modelDump)]

def canonicalText (request : InferenceRequest) : String :=
  (Value.object (requestPayload request)).dumpsSorted

/-- The least integer of more digits than `str` converts. -/
@[irreducible] def intTextLimit : Nat := 10 ^ 4300

/-- `json.dumps` writes the payload's only integer, if it has a text. -/
def RoutingRequirements.Writable (requirements : RoutingRequirements) : Prop :=
  ∀ tokens ∈ requirements.maximumOutputTokens, tokens < intTextLimit

instance (requirements : RoutingRequirements) : Decidable requirements.Writable :=
  inferInstanceAs (Decidable (∀ tokens ∈ requirements.maximumOutputTokens, tokens < intTextLimit))

/-- `sha256` gives the hexadecimal digest of some bytes. -/
def computeRequestHash (sha256 : ByteArray → String) (request : InferenceRequest) :
    Except PyException String :=
  if request.requirements.Writable then .ok (sha256 (canonicalText request).toUTF8)
    else .error (.other "ValueError")

theorem computeRequestHash_ok_iff {sha256 : ByteArray → String} {request : InferenceRequest}
    {requestHash : String} :
    computeRequestHash sha256 request = .ok requestHash ↔
      request.requirements.Writable ∧ sha256 (canonicalText request).toUTF8 = requestHash := by
  unfold computeRequestHash
  split
  · rename_i hwritable
    simp [hwritable]
  · rename_i hwritable
    simp [hwritable]

/-! ## What the canonical text is made of -/

theorem isText_optional {α : Type} (o : Option α) (f : α → Value Int) (hf : ∀ a, (f a).IsText) :
    (o.elim .null f).IsText := by
  cases o with
  | none => trivial
  | some a => exact hf a

theorem modelDump_text (requirements : RoutingRequirements) :
    Value.MembersText requirements.modelDump := by
  refine ⟨trivial, trivial, trivial, isText_optional _ _ fun _ => trivial, trivial,
    isText_optional _ _ fun _ => trivial,
    trivial, isText_optional _ _ fun _ => trivial, trivial, isText_optional _ _ fun _ => trivial,
      trivial, trivial,
    trivial, trivial, trivial⟩

theorem messages_text (messages : List Message) :
    Value.ItemsText (messages.map fun message => .object (messagePayload message)) := by
  induction messages with
  | nil => trivial
  | cons message messages ih => exact ⟨⟨trivial, trivial, trivial, trivial, trivial⟩, ih⟩

theorem requestPayload_text (request : InferenceRequest) :
    (Value.object (requestPayload request)).IsText :=
  ⟨trivial, trivial, trivial, messages_text request.messages, trivial,
    modelDump_text request.requirements, trivial⟩

theorem roleValue_injective : ∀ role role' : Role, role.value = role'.value → role = role'
  | .system, .system, _ | .user, .user, _ | .assistant, .assistant, _ => rfl

theorem qualityTierValue_injective {tier tier' : QualityTier} (h : tier.value = tier'.value) :
    tier = tier' := by
  cases tier <;> cases tier' <;> first | rfl | exact absurd h (by decide)

theorem latencyPreferenceValue_injective {preference preference' : LatencyPreference}
    (h : preference.value = preference'.value) : preference = preference' := by
  cases preference <;> cases preference' <;> first | rfl | exact absurd h (by decide)

theorem messagePayload_inj {message message' : Message}
    (h : (Value.object (messagePayload message)).sortKeys =
      (Value.object (messagePayload message')).sortKeys) :
    message = message' := by
  have hentries := Value.sortKeys_object (by rfl) (by simp [messagePayload]) h
  obtain ⟨hrole, hcontent⟩ : message.role.value = message'.role.value ∧
    message.content = message'.content := by
    simpa [messagePayload, Value.sortKeys] using hentries
  cases message
  cases message'
  rw [Message.mk.injEq]
  exact ⟨roleValue_injective _ _ hrole, hcontent⟩

theorem messages_inj {messages messages' : List Message}
    (h : (Value.array (messages.map fun message => .object (messagePayload message))).sortKeys =
      (Value.array (messages'.map fun message => .object (messagePayload message))).sortKeys) :
        messages = messages' := by
  have hitems := Value.array.inj h
  rw [Value.sortItems_eq_map, Value.sortItems_eq_map, List.map_map, List.map_map] at hitems
  exact List.map_injective_iff.mpr (fun _ _ => messagePayload_inj) hitems

/-- An optional field is null or what the value is rendered as. -/
theorem optional_inj {α : Type} {o o' : Option α} {f : α → Value Int}
    (hnull : ∀ a, (f a).sortKeys ≠ .null) (hf : ∀ a a', (f a).sortKeys = (f a').sortKeys → a = a')
    (h : (o.elim .null f).sortKeys = (o'.elim .null f).sortKeys) : o = o' := by
  cases o with
  | none =>
      cases o' with
      | none => rfl
      | some a' => exact absurd h.symm (hnull a')
  | some a =>
      cases o' with
      | none => exact absurd h (hnull a)
      | some a' => rw [hf a a' h]

theorem optionalText_inj {α : Type} {o o' : Option α} {text : α → String}
    (htext : ∀ a a', text a = text a' → a = a')
    (h : (o.elim .null fun a => .string (.text (text a)) : Value Int).sortKeys =
      (o'.elim .null fun a => .string (.text (text a)) : Value Int).sortKeys) : o = o' := by
  refine optional_inj ?_ ?_ h
  · intro a hnull
    cases hnull
  · intro a a' heq
    exact htext a a' (Str.text.inj (Value.string.inj heq))

theorem modelDump_inj {requirements requirements' : RoutingRequirements}
    (h : (Value.object requirements.modelDump).sortKeys =
      (Value.object requirements'.modelDump).sortKeys) :
    requirements = requirements' := by
  have hentries := Value.sortKeys_object (by rfl) (by simp [RoutingRequirements.modelDump]) h
  simp only [RoutingRequirements.modelDump, List.map_cons, List.map_nil, List.cons.injEq,
    Prod.mk.injEq, true_and,
    and_true] at hentries
  obtain ⟨hcapability, htier, hcost, htokens, hpreference, htool, hstructured⟩ := hentries
  have htokens' : requirements.maximumOutputTokens = requirements'.maximumOutputTokens := by
    refine optional_inj ?_ ?_ htokens
    · intro a hnull
      cases hnull
    · intro a a' heq
      exact Int.ofNat_inj.mp (Value.number.inj heq)
  have htier' := optionalText_inj (fun _ _ => qualityTierValue_injective) htier
  have hcost' := optionalText_inj (fun _ _ => Decimal.str_injective) hcost
  have hpreference' := optionalText_inj (fun _ _ => latencyPreferenceValue_injective) hpreference
  cases requirements
  cases requirements'
  simp only [RoutingRequirements.mk.injEq]
  exact ⟨Str.text.inj (Value.string.inj hcapability), htier', hcost', htokens', hpreference',
    Value.bool.inj htool,
    Value.bool.inj hstructured⟩

theorem canonicalText_inj {request request' : InferenceRequest}
    (h : canonicalText request = canonicalText request') :
    request.applicationId = request'.applicationId ∧ request.messages = request'.messages ∧
      request.requirements = request'.requirements := by
  have hsorted := Value.dumpsSorted_inj (requestPayload_text request)
      (requestPayload_text request') h
  have hentries := Value.sortKeys_object (by rfl) (by simp [requestPayload]) hsorted
  simp only [requestPayload, List.map_cons, List.map_nil, List.cons.injEq, Prod.mk.injEq,
    true_and, and_true]
    at hentries
  obtain ⟨happlication, hmessages, hrequirements⟩ := hentries
  exact ⟨Str.text.inj (Value.string.inj happlication), messages_inj hmessages,
    modelDump_inj hrequirements⟩

theorem canonicalText_congr {request request' : InferenceRequest}
    (happlication : request.applicationId = request'.applicationId)
    (hmessages : request.messages = request'.messages)
    (hrequirements : request.requirements = request'.requirements) :
    canonicalText request = canonicalText request' := by
  unfold canonicalText requestPayload
  rw [happlication, hmessages, hrequirements]

/-- **The canonical text separates different requests.** It is the same for two requests exactly
where they are from one application, with the same messages in the same order and the same
requirements. -/
theorem canonicalText_eq_iff (request request' : InferenceRequest) :
    canonicalText request = canonicalText request' ↔
      request.applicationId = request'.applicationId ∧ request.messages = request'.messages ∧
        request.requirements = request'.requirements := by
  constructor
  · exact canonicalText_inj
  · rintro ⟨happlication, hmessages, hrequirements⟩
    exact canonicalText_congr happlication hmessages hrequirements

/-- With a hash function without collisions, so does the hash of requests that have one. -/
theorem computeRequestHash_eq_iff {sha256 : ByteArray → String}
    (hsha256 : Function.Injective sha256)
    {request request' : InferenceRequest} (hwritable : request.requirements.Writable)
    (hwritable' : request'.requirements.Writable) :
    computeRequestHash sha256 request = computeRequestHash sha256 request' ↔
      canonicalText request = canonicalText request' := by
  unfold computeRequestHash
  rw [if_pos hwritable, if_pos hwritable', Except.ok.injEq, hsha256.eq_iff]
  exact String.toByteArray_inj

end ModelRouter
