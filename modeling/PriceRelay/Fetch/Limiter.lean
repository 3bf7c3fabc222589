/-!
# The fetch limiter

So many fetches may run at once. Whoever finds no permit waits in line, and a permit that is given
back goes to the first in line, who may take a while to notice.

* `Limiter.acquire` takes a permit or a place in line,
* `Limiter.release` gives a permit back,
* `Limiter.claim` takes up a permit that was handed over.
-/

namespace PriceRelay

/-- A place in line: who waits, and a number that tells apart the places of one owner. -/
structure Ticket where
  /-- who waits -/
  owner : Nat
  /-- number of the place -/
  number : Nat
deriving DecidableEq, Repr

/-- Permits and the line for them. -/
structure Limiter where
  /-- permits that nobody holds -/
  free : Nat
  /-- the line -/
  line : List Ticket := []
  /-- permits handed over that nobody has taken up yet -/
  handed : List Ticket := []
  /-- places given out so far -/
  issued : Nat := 0
deriving DecidableEq, Repr

namespace Limiter

/-- A limiter with so many permits, at least one. -/
def ofCount (n : Nat) : Limiter where
  free := max 1 n

/-- Take a permit, or else a place in line. -/
def acquire (l : Limiter) (owner : Nat) : Option Ticket × Limiter :=
  match l.free with
  | n + 1 => (none, { l with free := n })
  | 0 =>
    let ticket : Ticket := ⟨owner, l.issued⟩
    (some ticket, { l with line := l.line ++ [ticket], issued := l.issued + 1 })

/-- Give a permit back; the first in line gets it. -/
def release (l : Limiter) : Option Ticket × Limiter :=
  match l.line with
  | [] => (none, { l with free := l.free + 1 })
  | ticket :: line => (some ticket, { l with line := line, handed := ticket :: l.handed })

/-- Take up a permit that was handed over, if it was. -/
def claim (l : Limiter) (ticket : Ticket) : Option Limiter :=
  if ticket ∈ l.handed then some { l with handed := l.handed.erase ticket } else none

end Limiter

end PriceRelay
