import PriceRelay.Duration
/-!
# Loops

The relay runs rounds of work at regular intervals until it is told to stop. A loop waits for its
next tick and for the stop at the same time; a round, once begun, is finished. Where both are there
at once, either may be taken.

* `Ticker` keeps the schedule of the ticks,
* `Loop.Wake.choose` says what a waiting loop does.
-/

namespace PriceRelay

/-- A schedule of ticks at equal distance. Ticks that were missed are due at once, one after
another. -/
structure Ticker where
  /-- when the next tick is due -/
  next : Duration
  /-- the distance -/
  period : Duration
deriving DecidableEq, Repr

namespace Ticker

/-- Whether a tick is due. -/
def isDue (t : Ticker) (now : Duration) : Bool := t.next ≤ now

/-- The schedule after a tick was taken. -/
def taken (t : Ticker) : Ticker := { t with next := t.next + t.period }

end Ticker

namespace Loop

/-- Why a waiting loop goes on. -/
inductive Wake
  /-- a tick is due -/
  | tick
  /-- it is told to stop -/
  | stop
deriving DecidableEq, Repr

/-- Why a loop goes on, given what is there, and which of two is taken; nothing if it waits on. -/
def Wake.choose (preferred : Wake) (tickDue stopped : Bool) : Option Wake :=
  match tickDue, stopped with
  | false, false => none
  | true, false => some tick
  | false, true => some stop
  | true, true => some preferred

end Loop

end PriceRelay
