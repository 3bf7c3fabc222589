import PriceRelay.Cache.Overflow
import PriceRelay.Fetch.Cycle
import PriceRelay.Fetch.Limiter
import PriceRelay.Loop
import PriceRelay.Status
/-!
# The relay in motion

The relay as it runs: a clock, the selector, the cache, the limiter, and what it has
logged. The world outside is whatever answers probes and reads; it is known only through
`Providers`, which say at once what the answer to a request will be and how long it takes to arrive.

* `Providers` are the world outside, with a state of their own,
* `Awaited` is something that will be there at a known time,
* `Relay` is the relay.
-/

namespace PriceRelay

/-- An answer, and how long it takes to arrive. -/
structure Delayed (α : Type) where
  /-- the time until it arrives -/
  delay : Duration
  /-- the answer -/
  value : α

/-- The world outside. Each function is asked when a request is sent. -/
structure Providers (σ : Type) where
  /-- whether an endpoint answers a round trip -/
  roundTrip : NetworkId → String → σ → Delayed Bool × σ
  /-- the latest round of a contract, read over a handle -/
  readRound : Transport → String → σ → Delayed (Except Fault Round) × σ
  /-- a read has come to its end -/
  readDone : σ → σ
  /-- the latest quotes of some ids; absent if there is no quote service -/
  quotes : Option (List String → σ → Delayed (Except Fault (List Quote)) × σ)

/-- Something that will be there at a time. Of two such things for one time, the one that was set up
first is there first. -/
structure Awaited (α : Type) where
  /-- when it is there -/
  due : Duration
  /-- its place in the order in which such things were set up -/
  stamp : Nat
  /-- what will be there -/
  value : α

namespace Awaited

variable {α : Type}

/-- What is there now. -/
def now? (a : Awaited α) (now : Duration) : Option α := if a.due ≤ now then some a.value else none

/-- The time and place at which it will be there, unless it already is. -/
def timer? (a : Awaited α) (now : Duration) : Option (Duration × Nat) :=
  if a.due ≤ now then none else some (a.due, a.stamp)

end Awaited

/-- Lengths of time that the relay is run with, and other tunables. -/
structure Tunables where
  /-- time that a probe is given -/
  probeTimeout : Duration := .ofSeconds 5
  /-- distance of the rounds of probes -/
  probeInterval : Duration := .ofSeconds 30
  /-- how calls are run again -/
  failover : FailoverPolicy := {}
  /-- distance of the fetch cycles -/
  fetchInterval : Duration := .ofSeconds 30
  /-- how many fetches may run at once -/
  maxConcurrent : Nat := 10
  /-- distance of the status reports -/
  statusInterval : Duration := .ofSeconds 15
deriving DecidableEq, Repr

/-- The relay at one moment. -/
structure Relay (σ : Type) where
  /-- what it is run with -/
  tunables : Tunables := {}
  /-- the world outside -/
  providers : Providers σ
  /-- the state of the world outside -/
  outside : σ
  /-- symbols of quotes -/
  quoteSymbols : String → Option String := fun _ => none
  /-- symbols of feeds, for reports -/
  symbols : Feed → Option String := fun _ => none
  /-- whether reports tell of endpoints -/
  reportsEndpoints : Bool := false
  /-- the time since the start -/
  now : Duration := 0
  /-- how many awaited things were set up -/
  stamps : Nat := 0
  /-- the endpoints -/
  selector : Selector := {}
  /-- the prices -/
  cache : PriceCache
  /-- whether the size of the cache did not fit in a word when it was measured. Where additions are
  checked, whatever came to measure it has ended there; what the relay goes on with is what it does
  where they wrap around -/
  overflowed : Bool := false
  /-- permits for fetches -/
  limiter : Limiter
  /-- the candidates that the eviction policy ordered last -/
  ordered : Option (List Candidate) := none
  /-- lines logged, the latest first -/
  log : List String := []
  /-- what chance takes, each time a loop finds both its tick and the stop there -/
  chance : Nat → Loop.Wake := fun k => if k % 2 = 0 then .stop else .tick
  /-- how many times chance has decided -/
  draws : Nat := 0
  /-- tasks that have something to do, in the order in which they will do it; the caller is zero -/
  woken : List Nat := []

namespace Relay

variable {σ α : Type}

/-- The present moment. -/
def moment (r : Relay σ) : Moment := .running r.now

/-- Set something up that will be there after a delay. -/
def after (r : Relay σ) (d : Delayed α) : Awaited α × Relay σ :=
  (⟨r.now + d.delay, r.stamps, d.value⟩, { r with stamps := r.stamps + 1 })

/-- Why a waiting loop goes on, if it does. Chance decides where both its tick and the stop are
there. -/
def rouse (tickDue stopped : Bool) (r : Relay σ) : Option Loop.Wake × Relay σ :=
  (Loop.Wake.choose (r.chance r.draws) tickDue stopped,
    if tickDue && stopped then { r with draws := r.draws + 1 } else r)

/-- Log a line. -/
def tell (r : Relay σ) (line : String) : Relay σ := { r with log := line :: r.log }

/-- Wake a task. -/
def wake (r : Relay σ) (task : Nat) : Relay σ :=
  if task ∈ r.woken then r else { r with woken := r.woken ++ [task] }

/-- Write a record. -/
def write (r : Relay σ) (w : Write) : Relay σ :=
  let (cache, outcome) := r.cache.write w
  { r with
    cache := cache
    overflowed := r.overflowed || (r.cache.file w.feed w.record).overflows
    ordered := outcome.ordered.or r.ordered }

/-- Write some records, one after another. -/
def writeAll (r : Relay σ) (ws : List Write) : Relay σ := ws.foldl write r

/-- Make room in the cache. -/
def prune (r : Relay σ) : PruneOutcome × Relay σ :=
  let (cache, outcome) := r.cache.prune
  (outcome,
    { r with
      cache := cache
      overflowed := r.overflowed || r.cache.overflows
      ordered := outcome.ordered.or r.ordered })

/-- Give a permit back, and wake whoever gets it. -/
def releasePermit (r : Relay σ) : Relay σ :=
  match r.limiter.release with
  | (none, limiter) => { r with limiter := limiter }
  | (some ticket, limiter) => { r with limiter := limiter }.wake ticket.owner

/-- Begin to probe an endpoint. A probe that takes longer than it is given has failed by then; one
that takes just as long has not. -/
def startProbe (r : Relay σ) (n : NetworkId) (url : String) : Awaited Probe × Relay σ :=
  let (trip, outside) := r.providers.roundTrip n url r.outside
  let r := { r with outside := outside }
  if trip.delay ≤ r.tunables.probeTimeout then
    r.after ⟨trip.delay, ⟨n, url, if trip.value then some trip.delay else none⟩⟩
  else r.after ⟨r.tunables.probeTimeout, ⟨n, url, none⟩⟩

/-- Begin to probe some endpoints at once. -/
def startProbes (r : Relay σ) (n : NetworkId) : List String → List (Awaited Probe) × Relay σ
  | [] => ([], r)
  | url :: urls =>
    let (p, r) := r.startProbe n url
    let (ps, r) := r.startProbes n urls
    (p :: ps, r)

/-- The status at this moment. -/
def status (r : Relay σ) : Status :=
  .take r.cache r.symbols (if r.reportsEndpoints then r.selector.endpoints else [])

/-- Measuring the cache leaves a trace in what is remembered of the kinds of records. -/
def measured (r : Relay σ) : Relay σ :=
  { r with cache := r.cache.weighed, overflowed := r.overflowed || r.cache.overflows }

end Relay

end PriceRelay
