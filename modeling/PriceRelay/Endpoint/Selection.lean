import PriceRelay.Duration
import PriceRelay.Network
/-!
# Choosing an endpoint

Every candidate of a network is probed with one round trip, and the fastest one that answered is
chosen. Of two equally fast ones the one listed first is chosen. A probe that took no time at all
tells nothing and counts as failed.

* `Probe` is the outcome of one round trip,
* `Probe.best` chooses, `Probe.bestAvoiding` chooses another address if it can.
-/

namespace PriceRelay

/-- The outcome of probing one endpoint. -/
structure Probe where
  /-- the network it was probed for -/
  network : NetworkId
  /-- the address probed -/
  url : String
  /-- how long the round trip took; nothing if it failed or ran out of time -/
  latency : Option Duration
deriving DecidableEq, Repr

namespace Probe

/-- The time a usable endpoint took: it answered, and not in no time. -/
def speed (p : Probe) : Option Duration := p.latency.filter (· ≠ 0)

/-- Whether the endpoint can be chosen. -/
def isHealthy (p : Probe) : Bool := p.speed.isSome

variable {α : Type}

/-- The better of the best so far and one more: a later one has to be faster. -/
def better (probe : α → Probe) (best : Option α) (x : α) : Option α :=
  match (probe x).speed with
  | none => best
  | some d =>
    match best with
    | none => some x
    | some b => if ((probe b).speed.getD 0) ≤ d then some b else some x

/-- The first of the fastest among whatever carries a probe. -/
def fastest (probe : α → Probe) (xs : List α) : Option α := xs.foldl (better probe) none

/-- The first of the fastest. -/
def best (ps : List Probe) : Option Probe := fastest id ps

/-- The first of the fastest at another address than `avoid`; if there is none, of all. -/
def fastestAvoiding (probe : α → Probe) (avoid : Option String) (xs : List α) : Option α :=
  match avoid with
  | none => fastest probe xs
  | some url =>
    (fastest probe (xs.filter fun x => (probe x).url ≠ url)).or (fastest probe xs)

/-- The first of the fastest at another address than `avoid`; if there is none, of all. -/
def bestAvoiding (avoid : Option String) (ps : List Probe) : Option Probe :=
  fastestAvoiding id avoid ps

end Probe

end PriceRelay
