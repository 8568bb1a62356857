import ModelRouter.Handlers.Answers

/-!
# Encoded bodies

The gateway may hand a body over in base64, whose lines and other foreign characters do not matter.

* `extractBody_encoded` : the text of the body is extracted;
* `dispatch_encoded` : so an event is answered as if its body were plain.
-/

namespace ModelRouter
open Effects Prog HandlerServices

/-- The text is in ASCII, and its characters that base64 reads encode the bytes of the body. -/
structure EncodesBody (encoded body : String) : Prop where
  ascii : encoded.toList.all (fun c => c.toNat < 128) = true
  reads : encoded.toList.filter Base64.read =
    (Base64.encode body.toUTF8.data.toList).filter Base64.read

theorem decodeBase64Text_encoded {encoded body : String} (h : EncodesBody encoded body) :
    decodeBase64Text encoded = .ok body := by
  have hbytes : (⟨body.toUTF8.data.toList.toArray⟩ : ByteArray) = body.toByteArray := by
    rw [Array.toArray_toList]
    rfl
  have htext : String.fromUTF8? body.toByteArray = some body := dif_pos body.isValidUTF8
  rw [decodeBase64Text, if_pos h.ascii, Base64.decode_of_reads h.reads]
  dsimp only
  rw [hbytes, htext]

section
variable {event : ProxyEvent} {encoded body : String}

/-- The event with another body. -/
def ProxyEvent.withBody (event : ProxyEvent) (body : String) (isBase64Encoded : Bool) :
    ProxyEvent :=
  { event with body := some body, isBase64Encoded }

theorem extractBody_encoded (h : EncodesBody encoded body) :
    extractBody (event.withBody encoded true) = extractBody (event.withBody body false) :=
      decodeBase64Text_encoded h

/-- **An event with an encoded body is dispatched as the event with the plain body.** -/
theorem dispatch_encoded (services : HandlerServices) (h : EncodesBody encoded body) :
    services.dispatch (event.withBody encoded true) =
      services.dispatch (event.withBody body false) := by
  have hparse : ∀ requestId, services.parseRequestOr400 (event.withBody encoded true) requestId =
      services.parseRequestOr400 (event.withBody body false) requestId := by
    intro requestId
    unfold parseRequestOr400 parseBodyOr400
    rw [extractBody_encoded h]
  have hhandle : services.handleRoute (event.withBody encoded true) event.requestIdText =
      services.handleRoute (event.withBody body false) event.requestIdText := by
    unfold handleRoute handleInference handleRoutesEvaluate
    rw [hparse]
    rfl
  unfold dispatch
  rw [show (event.withBody encoded true).requestIdText = event.requestIdText from rfl,
    show (event.withBody body false).requestIdText = event.requestIdText from rfl, hhandle]

end

namespace Scenario

/-- The body of an inference, in three lines. -/
def encodedBody : String :=
  "eyJhcHBsaWNhdGlvbklkIjogImFwcCIsICJtZXNzYWdlcyI6IFt7InJvbGUiOiAidXNlciIsICJj\n" ++
  "b250ZW50IjogImhlbGxvIn1dLCAicmVxdWlyZW1lbnRzIjogeyJjYXBhYmlsaXR5IjogImNoYXQi\n" ++
  "fX0=\n"

theorem encoded_inference : services.dispatch (postInference.withBody encodedBody true) =
    services.dispatch (postInference.withBody inferenceBody false) :=
  dispatch_encoded services ⟨by decide +kernel, by decide +kernel⟩

end Scenario

end ModelRouter
