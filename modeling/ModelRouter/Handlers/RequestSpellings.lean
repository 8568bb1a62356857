import ModelRouter.Domain.RequestHash
import ModelRouter.Handlers.RequestMapping
import ModelRouter.Lib.Outcome

/-!
# One request in several spellings

Two bodies can ask for the same with a cost limit that is spelled differently (`0.01`, `0.010`).

* `SameRequest` : two requests that ask for the same, with their cost limits compared as numbers;
* `requestedCost` : the cost limit of a body, as pydantic reads it;
* `computeRequestHash_sameRequest` : two such requests have one hash exactly where pydantic reads
  the two limits as the same decimal, with its sign, its digits and its exponent, and the limit of
  their tokens has a text.
-/

namespace ModelRouter
open Arith Json

/-- The requests ask for the same. The cost limits may be two decimals of one value. -/
structure SameRequest (request request' : InferenceRequest) : Prop where
  applicationId : request.applicationId = request'.applicationId
  messages : request.messages = request'.messages
  capability : request.requirements.capability = request'.requirements.capability
  qualityTier : request.requirements.qualityTier = request'.requirements.qualityTier
  maximumEstimatedCostUsd : request.requirements.maximumEstimatedCostUsd.map Decimal.toRat =
    request'.requirements.maximumEstimatedCostUsd.map Decimal.toRat
  maximumOutputTokens : request.requirements.maximumOutputTokens =
    request'.requirements.maximumOutputTokens
  latencyPreference : request.requirements.latencyPreference =
    request'.requirements.latencyPreference
  requiresToolUse : request.requirements.requiresToolUse = request'.requirements.requiresToolUse
  requiresStructuredOutput :
    request.requirements.requiresStructuredOutput = request'.requirements.requiresStructuredOutput

section
variable (pydantic : Pydantic) (nestingLimit : Nat) (body : JsonValue)

/-- `parse_inference_request(parse_json_body(raw_body))`. -/
def parseBody : Except DynamicError InferenceRequest := do
  parseInferenceRequest pydantic (← parseJsonBody nestingLimit body)

/-- `body["requirements"]["maximumEstimatedCostUsd"]` as a field of type `Money | None`. -/
def requestedCost : Except DynamicError (Option Money) := do
  let requirements := (← PyValue.get "requirements" (← parseJsonBody nestingLimit body)).orEmpty
  validated (Pydantic.optional pydantic.money
    (← PyValue.get "maximumEstimatedCostUsd" requirements))

end

/-! ## The cost limit of a request -/

variable {pydantic : Pydantic}

theorem validateRequirements_cost {capability cost tokens toolUse structuredOutput : PyValue}
    {qualityTier : Option QualityTier} {latencyPreference : Option LatencyPreference}
    {requirements : RoutingRequirements}
    (h : validateRequirements pydantic capability qualityTier cost tokens latencyPreference toolUse
      structuredOutput =
      some requirements) :
    Pydantic.optional pydantic.money cost = some requirements.maximumEstimatedCostUsd := by
  simp only [validateRequirements, Option.bind_eq_bind, Option.bind_eq_some_iff] at h
  obtain ⟨_, -, limit, hlimit, _, -, _, -, _, -, hrequirements⟩ := h
  split at hrequirements
  · rw [hlimit, ← Option.some.inj hrequirements]
  · cases hrequirements

theorem parseRequirements_cost {requirementsRaw : PyValue} {requirements : RoutingRequirements}
    (h : parseRequirements pydantic requirementsRaw = .ok requirements) :
    (PyValue.get "maximumEstimatedCostUsd" requirementsRaw >>= fun cost =>
      validated (Pydantic.optional pydantic.money cost)) =
        .ok requirements.maximumEstimatedCostUsd := by
  obtain ⟨_, -, h⟩ := Outcome.bind_ok h
  obtain ⟨_, -, h⟩ := Outcome.bind_ok h
  obtain ⟨_, -, h⟩ := Outcome.bind_ok h
  obtain ⟨_, -, h⟩ := Outcome.bind_ok h
  obtain ⟨cost, hcost, h⟩ := Outcome.bind_ok h
  obtain ⟨_, -, h⟩ := Outcome.bind_ok h
  obtain ⟨_, -, h⟩ := Outcome.bind_ok h
  obtain ⟨_, -, h⟩ := Outcome.bind_ok h
  obtain ⟨_, -, h⟩ := Outcome.bind_ok h
  have hlimit := validateRequirements_cost (validated_ok_iff.mp h)
  rw [hcost]
  show validated (Pydantic.optional pydantic.money cost) = _
  rw [hlimit]
  rfl

theorem validateRequest_requirements
    {applicationId conversationId idempotencyKey metadata : PyValue}
    {messages : List Message} {requirements : RoutingRequirements} {request : InferenceRequest}
    (h : validateRequest applicationId messages requirements conversationId idempotencyKey metadata
      = some request) :
    request.requirements = requirements := by
  simp only [validateRequest, Option.bind_eq_bind, Option.bind_eq_some_iff] at h
  obtain ⟨_, -, _, -, _, -, _, -, hrequest⟩ := h
  split at hrequest
  · rw [← Option.some.inj hrequest]
  · cases hrequest

/-- An accepted body's cost limit is the one of its request. -/
theorem requestedCost_of_parseBody {nestingLimit : Nat} {body : JsonValue}
    {request : InferenceRequest} (h : parseBody pydantic nestingLimit body = .ok request) :
    requestedCost pydantic nestingLimit body =
      .ok request.requirements.maximumEstimatedCostUsd := by
  obtain ⟨value, hvalue, h⟩ := Outcome.bind_ok h
  obtain ⟨requirementsRaw, hraw, h⟩ := Outcome.bind_ok h
  obtain ⟨requirements, hrequirements, h⟩ := Outcome.bind_ok h
  obtain ⟨_, -, h⟩ := Outcome.bind_ok h
  obtain ⟨_, -, h⟩ := Outcome.bind_ok h
  obtain ⟨_, -, h⟩ := Outcome.bind_ok h
  obtain ⟨_, -, h⟩ := Outcome.bind_ok h
  obtain ⟨_, -, h⟩ := Outcome.bind_ok h
  obtain ⟨_, -, h⟩ := Outcome.bind_ok h
  obtain ⟨_, -, h⟩ := Outcome.bind_ok h
  have hcost := parseRequirements_cost hrequirements
  rw [← validateRequest_requirements (validated_ok_iff.mp h)] at hcost
  unfold requestedCost
  rw [hvalue]
  show (PyValue.get "requirements" value >>= _) = _
  rw [hraw]
  exact hcost

/-! ## The hash -/

theorem SameRequest.requirements_eq {request request' : InferenceRequest}
    (hsame : SameRequest request request') (hcost : request.requirements.maximumEstimatedCostUsd =
      request'.requirements.maximumEstimatedCostUsd) :
    request.requirements = request'.requirements := by
  have hcapability := hsame.capability
  have htier := hsame.qualityTier
  have htokens := hsame.maximumOutputTokens
  have hpreference := hsame.latencyPreference
  have htool := hsame.requiresToolUse
  have hstructured := hsame.requiresStructuredOutput
  generalize request.requirements = requirements at *
  generalize request'.requirements = requirements' at *
  cases requirements
  cases requirements'
  simp_all

/-- The canonical texts agree exactly where the two cost limits are one decimal. -/
theorem SameRequest.canonicalText_iff {request request' : InferenceRequest}
    (hsame : SameRequest request request') :
    canonicalText request = canonicalText request' ↔
      request.requirements.maximumEstimatedCostUsd =
        request'.requirements.maximumEstimatedCostUsd := by
  constructor
  · intro h
    rw [(canonicalText_inj h).2.2]
  · intro hcost
    exact canonicalText_congr hsame.applicationId hsame.messages (hsame.requirements_eq hcost)

theorem SameRequest.writable_iff {request request' : InferenceRequest}
    (hsame : SameRequest request request') :
    request.requirements.Writable ↔ request'.requirements.Writable := by
  unfold RoutingRequirements.Writable
  rw [hsame.maximumOutputTokens]

/-- **A request and its other spellings.** Two accepted bodies that ask for the same have one hash
exactly where pydantic reads their cost limits as the same decimal and the limit of their tokens has
a text, if the hash function does not map their two canonical texts to one digest. -/
theorem computeRequestHash_sameRequest {sha256 : ByteArray → String} {nestingLimit : Nat}
    {body body' : JsonValue}
    {request request' : InferenceRequest}
    (hrequest : parseBody pydantic nestingLimit body = .ok request)
    (hrequest' : parseBody pydantic nestingLimit body' = .ok request')
    (hsame : SameRequest request request')
    (hsha256 : sha256 (canonicalText request).toUTF8 = sha256 (canonicalText request').toUTF8 →
      canonicalText request = canonicalText request') :
    (∃ requestHash, computeRequestHash sha256 request = .ok requestHash ∧
      computeRequestHash sha256 request' = .ok requestHash) ↔
      requestedCost pydantic nestingLimit body = requestedCost pydantic nestingLimit body' ∧
        ∀ tokens ∈ request.requirements.maximumOutputTokens, tokens < 10 ^ 4300 := by
  have hlimit : (∀ tokens ∈ request.requirements.maximumOutputTokens, tokens < 10 ^ 4300) ↔
      request.requirements.Writable := by
    unfold RoutingRequirements.Writable intTextLimit
    exact Iff.rfl
  rw [requestedCost_of_parseBody hrequest, requestedCost_of_parseBody hrequest', Except.ok.injEq,
    ← hsame.canonicalText_iff, hlimit]
  simp only [computeRequestHash_ok_iff, ← hsame.writable_iff]
  constructor
  · rintro ⟨requestHash, ⟨hwritable, hhash⟩, -, hhash'⟩
    exact ⟨hsha256 (hhash.trans hhash'.symm), hwritable⟩
  · rintro ⟨htexts, hwritable⟩
    exact ⟨_, ⟨hwritable, rfl⟩, hwritable, by rw [htexts]⟩

namespace Scenario

/-- `0.01` and `0.010`. -/
def cent : NumberLiteral := { digits := [0], fraction := some [0, 1] }
def centPadded : NumberLiteral := { digits := [0], fraction := some [0, 1, 0] }

/-- A body that asks for a chat for at most so much. -/
def costBody (cost : NumberLiteral) : JsonValue :=
  .object [(.text "applicationId", .string (.text "payments")),
    (.text "messages", .array
      [.object [(.text "role", .string (.text "user")),
        (.text "content", .string (.text "Hello"))]]),
    (.text "requirements", .object [(.text "capability", .string (.text "chat")),
      (.text "maximumEstimatedCostUsd", .number (.literal cost))])]

theorem no_outputLimit : ∀ n ∈ (none : Option Nat), 0 < n := by simp

def costRequest (cost : Decimal) : InferenceRequest where
  applicationId := "payments"
  messages := [{ role := .user, content := "Hello" }]
  requirements :=
    { capability := "chat", maximumEstimatedCostUsd := some cost,
      maximumOutputTokens_pos := no_outputLimit }

/-- The digests of the two requests' canonical texts. -/
def costSha256 (bytes : ByteArray) : String :=
  if bytes.data = (canonicalText (costRequest cent.toDecimal)).toUTF8.data then
    "ef95f9c0a7aa90521b95a438878634a4ba6f43d39bb17bef1814271a7a82da39"
  else "cffd17aa8e0618a217746ea85979fd56511269551ba54fc85e57110e47b46278"

theorem costRequest_same :
    SameRequest (costRequest cent.toDecimal) (costRequest centPadded.toDecimal) := by
  constructor
  case maximumEstimatedCostUsd => decide +kernel
  all_goals rfl

theorem parse_cost : parseBody .strict 10 (costBody cent) = .ok (costRequest cent.toDecimal) := by
  decide +kernel

theorem parse_costPadded :
    parseBody .strict 10 (costBody centPadded) = .ok (costRequest centPadded.toDecimal) := by
  decide +kernel

theorem costSha256_cent :
    costSha256 (canonicalText (costRequest cent.toDecimal)).toUTF8 ≠
      costSha256 (canonicalText (costRequest centPadded.toDecimal)).toUTF8 := by
  have htexts : (canonicalText (costRequest centPadded.toDecimal)).toUTF8 ≠
      (canonicalText (costRequest cent.toDecimal)).toUTF8 := by
    intro h
    have hcost := costRequest_same.canonicalText_iff.mp (String.toByteArray_inj.mp h).symm
    exact absurd hcost (by decide +kernel)
  unfold costSha256
  rw [if_pos rfl, if_neg (mt ByteArray.ext htexts)]
  decide +kernel

/-- The limit `0.01` is also read as another decimal, `0.010`, and the hashes differ. -/
theorem cent_padded :
    ((∃ requestHash, computeRequestHash costSha256 (costRequest cent.toDecimal) = .ok requestHash ∧
        computeRequestHash costSha256 (costRequest centPadded.toDecimal) = .ok requestHash) ↔
      requestedCost .strict 10 (costBody cent) = requestedCost .strict 10 (costBody centPadded) ∧
        ∀ tokens ∈ (costRequest cent.toDecimal).requirements.maximumOutputTokens,
          tokens < 10 ^ 4300) ∧
    requestedCost .strict 10 (costBody cent) = .ok (some ⟨false, 1, -2⟩) :=
  ⟨computeRequestHash_sameRequest parse_cost parse_costPadded costRequest_same fun h =>
    absurd h costSha256_cent,
    requestedCost_of_parseBody parse_cost⟩

/-- The same request with its limit spelled `0.01` and `0.010` has two hashes. -/
theorem cent_rehashed :
    parseBody .strict 10 (costBody cent) = .ok (costRequest cent.toDecimal) ∧
      parseBody .strict 10 (costBody centPadded) = .ok (costRequest centPadded.toDecimal) ∧
      SameRequest (costRequest cent.toDecimal) (costRequest centPadded.toDecimal) ∧
      ∃ requestHash requestHash',
        computeRequestHash costSha256 (costRequest cent.toDecimal) = .ok requestHash ∧
        computeRequestHash costSha256 (costRequest centPadded.toDecimal) = .ok requestHash' ∧
        requestHash ≠ requestHash' := by
  have hwritable : ∀ cost, (costRequest cost).requirements.Writable :=
    fun cost tokens htokens => by cases htokens
  exact ⟨parse_cost, parse_costPadded, costRequest_same, _, _, if_pos (hwritable _),
    if_pos (hwritable _), costSha256_cent⟩

end Scenario

end ModelRouter
