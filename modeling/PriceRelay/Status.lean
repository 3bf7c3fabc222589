import PriceRelay.Binary64.Text
import PriceRelay.Cache.Eviction
import PriceRelay.Endpoint.Selector
/-!
# Status

A snapshot tells how full the cache is, what it holds, and which endpoints are in use; a report is
the snapshot in lines of text.

* `Status.take` takes a snapshot,
* `Status.usage` is how much of the cap is used, in percent,
* `Status.report` words a snapshot.
-/

namespace PriceRelay

/-- The latest value of a feed. -/
structure FeedStatus where
  /-- the feed -/
  feed : Feed
  /-- its symbol, if it is known -/
  symbol : Option String
  /-- the price without its power of ten -/
  magnitude : Word
  /-- power of ten of the price -/
  scale : Int32
  /-- when it was read -/
  observed : Moment
deriving DecidableEq, Repr

/-- What the relay holds at one moment. -/
structure Status where
  /-- counts of the cache -/
  stats : CacheStats
  /-- the feeds that have a record -/
  feeds : List FeedStatus
  /-- the endpoints in use -/
  endpoints : List EndpointRecord
deriving DecidableEq, Repr

namespace Status

/-- The status of a feed, if it has a record. -/
def ofFeed? (c : PriceCache) (symbols : Feed → Option String) (f : Feed) : Option FeedStatus :=
  match c.get f with
  | .error _ => none
  | .ok r => some ⟨f, symbols f, r.magnitude, r.scale, r.observed⟩

/-- Take a snapshot. -/
def take (c : PriceCache) (symbols : Feed → Option String) (endpoints : List EndpointRecord) :
    Status where
  stats := c.stats
  feeds := c.tracked.filterMap (ofFeed? c symbols)
  endpoints := endpoints

/-- How much of the cap is used, in percent. A cap of zero is all used. -/
def usage (s : Status) : Binary64 :=
  if s.stats.cap = 0 then .ofNat 100
  else ((Binary64.ofNat s.stats.size.toNat).div (.ofNat s.stats.cap.toNat)).mul (.ofNat 100)

/-- The line that tells of the cache. -/
def cacheLine (s : Status) : String :=
  "Price cache: " ++ toString s.stats.size.toNat ++ " / " ++ toString s.stats.cap.toNat ++
    " bytes (" ++ s.usage.oneDecimal ++ "%), " ++ toString s.stats.feeds ++ " feeds tracked, " ++
    toString s.stats.records ++ " with data, " ++ toString s.stats.evictions ++ " evicted"

/-- The line that tells of a feed. -/
def feedLine (f : FeedStatus) : String :=
  "  " ++ f.feed.source.name ++ " " ++ f.symbol.getD f.feed.identifier ++ " on " ++
    f.feed.network.label ++ ": " ++ Word.signedText f.magnitude ++ " x 10^" ++
    toString f.scale.toInt ++ " (observed " ++ f.observed.timeOfDay ++ ")"

/-- The line that tells of an endpoint that was chosen so long ago. -/
def endpointLine (age : String) (e : EndpointRecord) : String :=
  "  RPC " ++ e.network.label ++ " -> " ++ e.url ++ " (" ++ e.latency.text ++ ", selected " ++
    age ++ " ago)"

/-- A snapshot in lines of text. The age of an endpoint is a matter of the clock on the wall. -/
def report (age : Moment → String) (s : Status) : List String :=
  s.cacheLine :: s.feeds.map feedLine ++
    s.endpoints.map fun e => endpointLine (age e.updated) e

end Status

end PriceRelay
