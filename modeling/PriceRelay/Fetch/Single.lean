import PriceRelay.Cache.Eviction
import PriceRelay.Failover
import PriceRelay.Quote
/-!
# Fetching one aggregator

A fetch waits for a permit, reads the contract's latest round in a call with failover, and writes
the record of the round. A fetch that fails writes nothing.

* `Fetch` is the machine, `Fetch.enter` and `Fetch.step` move it,
* `Write` is what a fetch asks the cache to do.
-/

namespace PriceRelay

/-- A record to be written for a feed. -/
structure Write where
  /-- the feed -/
  feed : Feed
  /-- the record -/
  record : Record
deriving DecidableEq, Repr

/-- Write a record. -/
def PriceCache.write (c : PriceCache) (w : Write) : PriceCache × PruneOutcome :=
  c.put w.feed w.record

/-- What a fetch waits for. -/
inductive Fetch.Phase
  /-- a permit -/
  | waiting
  /-- the call that reads the round -/
  | calling (call : FailoverCall Round)
  /-- nothing any more -/
  | finished (answer : Except Fault Record)

/-- The fetch of one aggregator. -/
structure Fetch where
  /-- the network of the contract -/
  network : NetworkId
  /-- the address of the contract -/
  address : String
  /-- what the fetch waits for -/
  phase : Fetch.Phase := .waiting

namespace Fetch

/-- The feed that is fetched. -/
def feed (f : Fetch) : Feed := ⟨f.network, .chainlink, f.address⟩

/-- Go on with a call: once it has its answer the fetch is finished, and a round is written. -/
def follow (f : Fetch) (now : Moment) (call : FailoverCall Round) : Fetch × List Write :=
  match call.answer? with
  | none => ({ f with phase := .calling call }, [])
  | some (.error e) => ({ f with phase := .finished (.error e) }, [])
  | some (.ok round) =>
    let record := Record.aggregator (round.price f.network f.address now)
    ({ f with phase := .finished (.ok record) }, [⟨f.feed, record⟩])

/-- The permit is there: start the call. -/
def enter (f : Fetch) (now : Moment) (s : Selector) : Fetch × List Write :=
  match f.phase with
  | .waiting => f.follow now (.begin s f.network)
  | _ => (f, [])

/-- Something has happened to the call. -/
def step (policy : FailoverPolicy) (now : Moment) (e : FailoverCall.Event Round) (f : Fetch)
    (s : Selector) : (Fetch × List Write) × Selector :=
  match f.phase with
  | .calling call =>
    let (call, s) := call.step policy now e s
    (f.follow now call, s)
  | _ => ((f, []), s)

/-- The answer, once there is one. -/
def answer? (f : Fetch) : Option (Except Fault Record) :=
  match f.phase with
  | .finished a => some a
  | _ => none

end Fetch

end PriceRelay
