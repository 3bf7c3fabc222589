import PriceRelay.Fault
import PriceRelay.Table
/-!
# Transports

A transport is a handle to one endpoint of one network. Handles are told apart by their serial
number, and whoever holds a copy of a handle shares its count of requests.

* `Transport` is a handle,
* `RequestCounts` numbers the requests sent over each handle.
-/

namespace PriceRelay

/-- A handle to an endpoint. -/
structure Transport where
  /-- what tells this handle from every other one -/
  serial : Nat
  /-- the network it was made for -/
  network : NetworkId
  /-- the address it leads to -/
  url : String
deriving DecidableEq, Repr

namespace Transport

/-- Whether two handles lead to the same address of the same network. -/
def sameEndpoint (a b : Transport) : Bool := a.network = b.network && a.url = b.url

/-- Whether two handles are copies of one. -/
def sharesConnection (a b : Transport) : Bool := a.serial = b.serial

end Transport

/-- How many requests were sent over each handle, by serial number. -/
structure RequestCounts where
  /-- the counts above zero -/
  sent : Table Nat UInt64 := .empty

/-- The number of the next request over a handle; the first is one. -/
def RequestCounts.next (c : RequestCounts) (t : Transport) : UInt64 × RequestCounts :=
  let id := (c.sent.get? t.serial).getD 0 + 1
  (id, ⟨c.sent.insert t.serial id⟩)

end PriceRelay
