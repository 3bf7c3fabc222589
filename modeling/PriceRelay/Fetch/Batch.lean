import PriceRelay.Fetch.Single
/-!
# Fetching quotes

All feeds of the quote service are fetched in one batch. Quotes that nobody asked for are passed
over; the others are written in the order of the reply.

* `Batch` is the machine, `Batch.enter` and `Batch.heard` move it,
* `Batch.writes` are what a reply makes it write.
-/

namespace PriceRelay

/-- What a batch waits for. -/
inductive Batch.Phase
  /-- a permit -/
  | waiting
  /-- the reply of the quote service -/
  | asking
  /-- nothing any more; so many quotes were written -/
  | finished (answer : Except Fault Nat)

/-- The fetch of some quotes. -/
structure Batch where
  /-- the ids asked for -/
  ids : List String
  /-- what the batch waits for -/
  phase : Batch.Phase := .waiting

namespace Batch

/-- Start a batch. One without a service to ask, or without an id, is finished at once. -/
def begin (hasService : Bool) (ids : List String) : Batch :=
  if hasService && !ids.isEmpty then { ids } else { ids, phase := .finished (.ok 0) }

/-- The feed a quote is written for. -/
def feedOf (q : Quote) : Feed := ⟨.offChain, .pyth, q.identifier⟩

/-- What is written of a reply. -/
def writes (ids : List String) (symbols : String → Option String) (now : Moment)
    (quotes : List Quote) : List Write :=
  (quotes.filter fun q => q.identifier ∈ ids).map fun q =>
    ⟨feedOf q, .quoted (q.price (symbols q.identifier) now)⟩

/-- The permit is there: ask. -/
def enter (b : Batch) : Batch :=
  match b.phase with
  | .waiting => { b with phase := .asking }
  | _ => b

/-- The service has replied. -/
def heard (symbols : String → Option String) (now : Moment) (reply : Except Fault (List Quote))
    (b : Batch) : Batch × List Write :=
  match b.phase with
  | .asking =>
    match reply with
    | .error e => ({ b with phase := .finished (.error e) }, [])
    | .ok quotes =>
      let ws := writes b.ids symbols now quotes
      ({ b with phase := .finished (.ok ws.length) }, ws)
  | _ => (b, [])

/-- The answer, once there is one. -/
def answer? (b : Batch) : Option (Except Fault Nat) :=
  match b.phase with
  | .finished a => some a
  | _ => none

end Batch

end PriceRelay
