import PriceRelay.Endpoint.Selection
import PriceRelay.Endpoint.Transport
import PriceRelay.Record
/-!
# The selector

The selector keeps, for every network it has candidates for, the endpoint chosen last and the handle
to it. A choice is made in two halves: the candidates are probed, which takes time, and then the
outcome is published in one step, so that a reader of the table sees the old choice or the new one.

To make a handle is to build a client for its address, which sends nothing. That a client can be
built is an assumption here, `Selector.connect` never fails, and whatever is proved of a choice that
is published rests on it.

* `Selector.candidates` are what there is to choose from,
* `Selector.bestTransport`, `Selector.endpoint?` and `Selector.endpoints` read the table,
* `Selector.publish` puts an endpoint in,
* `Selector.toProbe` and `Selector.settle` are the two halves of a choice.
-/

namespace PriceRelay

/-- What the table tells of a chosen endpoint. -/
structure EndpointRecord where
  /-- its address -/
  url : String
  /-- the network it serves -/
  network : NetworkId
  /-- how long its probe took -/
  latency : Duration
  /-- when it was chosen -/
  updated : Moment
deriving DecidableEq, Repr

/-- A chosen endpoint and the handle to it. -/
structure ActiveEndpoint where
  /-- what is told of it -/
  record : EndpointRecord
  /-- the handle -/
  transport : Transport
deriving DecidableEq, Repr

/-- Candidates and choices. -/
structure Selector where
  /-- the candidates of each network, in the order in which they are listed -/
  listed : Table NetworkId (List String) := .empty
  /-- the endpoint chosen for each network -/
  table : Table NetworkId ActiveEndpoint := .empty
  /-- how many handles were made so far; they are numbered from zero -/
  opened : Nat := 0

namespace Selector

/-- A selector for some networks with their addresses, of which blank ones do not count. Of two
lists for one network the later counts. -/
def ofLists (lists : List (NetworkId × List String)) : Selector where
  listed := .ofList (lists.map fun p => (p.1, p.2.filter fun url => !Text.isBlankText url))

/-- The networks there are candidates for, in order. -/
def networks (s : Selector) : List NetworkId := s.listed.keys

/-- The candidates of a network. -/
def candidates (s : Selector) (n : NetworkId) : List String := (s.listed.get? n).getD []

/-- The handle to the endpoint of a network. -/
def bestTransport (s : Selector) (n : NetworkId) : Except Fault Transport :=
  match s.table.get? n with
  | some active => .ok active.transport
  | none => .error (.noTransport n)

/-- The endpoint of a network. -/
def endpoint? (s : Selector) (n : NetworkId) : Option EndpointRecord :=
  (s.table.get? n).map ActiveEndpoint.record

/-- The address of the endpoint of a network. -/
def currentUrl (s : Selector) (n : NetworkId) : Option String :=
  (s.endpoint? n).map EndpointRecord.url

/-- The endpoints of all networks, in the order of the networks. -/
def endpoints (s : Selector) : List EndpointRecord := s.table.values.map ActiveEndpoint.record

/-- A new handle; nothing is sent for it. Building its client is taken to succeed. -/
def connect (s : Selector) (n : NetworkId) (url : String) : Transport × Selector :=
  (⟨s.opened, n, url⟩, { s with opened := s.opened + 1 })

/-- The handle to an address: the one in the table if it leads there, else a new one. -/
def handle (s : Selector) (n : NetworkId) (url : String) : Transport × Selector :=
  match s.table.get? n with
  | some active => if active.record.url = url then (active.transport, s) else s.connect n url
  | none => s.connect n url

/-- Make an address the endpoint of a network. -/
def publish (s : Selector) (n : NetworkId) (url : String) (latency : Duration) (now : Moment) :
    Transport × Selector :=
  let (transport, s) := s.handle n url
  (transport, { s with table := s.table.insert n ⟨⟨url, n, latency, now⟩, transport⟩ })

/-- First half of a choice: the addresses to probe. -/
def toProbe (s : Selector) (n : NetworkId) : Except Fault (List String) :=
  match s.candidates n with
  | [] => .error (.noTransport n)
  | urls => .ok urls

/-- Second half of a choice: publish the best of the probed endpoints, if one is healthy. -/
def settle (s : Selector) (n : NetworkId) (avoid : Option String) (probes : List Probe)
    (now : Moment) : Option Transport × Selector :=
  match Probe.bestAvoiding avoid probes with
  | none => (none, s)
  | some p =>
    let (transport, s') := s.publish n p.url (p.latency.getD 0) now
    (some transport, s')

end Selector

end PriceRelay
