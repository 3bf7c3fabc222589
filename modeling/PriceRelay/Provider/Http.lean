import PriceRelay.Text.Utf8
/-!
# Replies of a server

What comes back for a request: a status and a body, which may break off, or nothing.

* `HttpReply` is what comes back,
* `Channel` is a way to send requests, with a state of its own.
-/

namespace PriceRelay

/-- What comes back for a request. -/
inductive HttpReply
  /-- a status, and a body as bytes -/
  | answered (status : Nat) (body : List UInt8)
  /-- a status, and a body that breaks off; the detail tells how -/
  | brokenOff (status : Nat) (detail : String)
  /-- nothing; the detail tells why -/
  | failed (detail : String)
deriving DecidableEq, Repr

/-- Whether a status tells of success. -/
def HttpReply.isSuccess (status : Nat) : Bool := 200 ≤ status && status < 300

/-- What comes back for a request to an address that cannot be reached. -/
def HttpReply.unreachable (url : String) : HttpReply :=
  .failed ("error sending request for url (" ++ url ++ ")")

/-- A way to put questions and hear what comes back. Whatever is on the other side is its state. -/
abbrev Channel (σ ι ο : Type) := ι → σ → ο × σ

end PriceRelay
