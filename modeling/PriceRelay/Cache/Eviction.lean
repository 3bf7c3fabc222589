import PriceRelay.Cache.Basic
/-!
# Writing and eviction

A write files a record and then, if the accounted size is above the cap, pushes records out until
it fits or none is left. The record just written stays.

* `EvictionPolicy.leastRecentlyWritten` is the usual policy,
* `PriceCache.evict` takes candidates out one after another,
* `PriceCache.pruneSparing` is one pass, `PriceCache.put` is a write and the pass after it.
-/

namespace PriceRelay

namespace EvictionPolicy

/-- The record written longest ago goes first. -/
def leastRecentlyWritten : EvictionPolicy where
  name := "least-recently-updated"
  order cs := cs.mergeSort fun a b => a.written ≤ b.written

/-- The record written last goes first. -/
def newestFirst : EvictionPolicy where
  name := "newest"
  order cs := cs.mergeSort fun a b => b.written ≤ a.written

/-- The largest record goes first, of two equally large ones the one written earlier. -/
def largestFirst : EvictionPolicy where
  name := "largest"
  order cs := cs.mergeSort fun a b => b.size < a.size || (a.size = b.size && a.written ≤ b.written)

/-- Records go in the order of their addresses. -/
def byAddress : EvictionPolicy where
  name := "key"
  order cs := cs.mergeSort fun a b => !(b.address < a.address)

end EvictionPolicy

/-- What one pass did. -/
structure PruneOutcome where
  /-- the candidates as the policy ordered them, if it was asked -/
  ordered : Option (List Candidate)
  /-- the feeds whose records went, in the order in which they went -/
  evicted : List Feed
  /-- accounted size before the pass -/
  sizeBefore : UInt64
  /-- accounted size after it -/
  sizeAfter : UInt64
deriving DecidableEq, Repr

namespace PriceCache

/-- An empty cache with a cap and the usual policy. -/
def ofCap (cap : UInt64) : PriceCache where
  cap := cap
  policy := .leastRecentlyWritten

/-- The records that may go: all but the one at `spare`. -/
def candidates (c : PriceCache) (spare : Option Address) : List Candidate :=
  (c.entries.toList.map fun p => Candidate.mk p.1 p.2.written
    (entrySize c.sizes p.1.key p.2.record)).filter fun cand => some cand.address ≠ spare

/-- Where a pass stands: the records left, the size they are accounted with, the feeds gone. -/
structure Pass where
  /-- records left -/
  entries : Table Address Entry
  /-- accounted size -/
  size : UInt64
  /-- feeds gone -/
  evicted : List Feed

/-- The difference, or zero if it were negative. -/
def saturatingSub (a b : UInt64) : UInt64 := if b ≤ a then a - b else 0

/-- Take one candidate out, unless the size fits already or the candidate is not there. -/
def Pass.step (cap : UInt64) (feeds : Table Address Feed) (p : Pass) (cand : Candidate) : Pass :=
  if p.size ≤ cap then p
  else match p.entries.get? cand.address with
    | none => p
    | some _ =>
      { entries := p.entries.erase cand.address
        size := saturatingSub p.size cand.size
        evicted := p.evicted ++ (feeds.get? cand.address).toList }

/-- Take candidates out, one after another, until the size fits. -/
def evict (c : PriceCache) (ordered : List Candidate) : Pass :=
  ordered.foldl (Pass.step c.cap c.feeds) ⟨c.entries, c.size, []⟩

/-- One pass, which leaves the record at `spare` alone. -/
def pruneSparing (c : PriceCache) (spare : Option Address) : PriceCache × PruneOutcome :=
  let weighed := c.weighed
  if c.size ≤ c.cap then (weighed, ⟨none, [], c.size, c.size⟩)
  else
    let ordered := c.policy.order (c.candidates spare)
    let pass := c.evict ordered
    ({ weighed with
        entries := pass.entries
        evictions := c.evictions + pass.evicted.length },
      ⟨some ordered, pass.evicted, c.size, pass.size⟩)

/-- A pass on demand. -/
def prune (c : PriceCache) : PriceCache × PruneOutcome := c.pruneSparing none

/-- File a record as the latest one of a feed, which is tracked from then on. -/
def file (c : PriceCache) (f : Feed) (r : Record) : PriceCache :=
  { c.addFeed f with
    entries := c.entries.insert f.address ⟨r, c.writes + 1⟩
    writes := c.writes + 1
    updates := c.updates + 1 }

/-- Write a record: file it, and make a pass that spares it. -/
def put (c : PriceCache) (f : Feed) (r : Record) : PriceCache × PruneOutcome :=
  (c.file f r).pruneSparing (some f.address)

end PriceCache

/-- Counts of a cache. -/
structure CacheStats where
  /-- networks that something is filed under -/
  networks : Nat
  /-- tracked feeds -/
  feeds : Nat
  /-- records held -/
  records : Nat
  /-- updates so far -/
  updates : Nat
  /-- records pushed out so far -/
  evictions : Nat
  /-- accounted size -/
  size : UInt64
  /-- cap -/
  cap : UInt64
deriving DecidableEq, Repr

/-- The counts of a cache. -/
def PriceCache.stats (c : PriceCache) : CacheStats where
  networks := c.networks.length
  feeds := c.feeds.size
  records := c.entries.size
  updates := c.updates
  evictions := c.evictions
  size := c.size
  cap := c.cap

end PriceRelay
