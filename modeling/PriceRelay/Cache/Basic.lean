import PriceRelay.Fault
import PriceRelay.Size
import PriceRelay.Table
/-!
# The price cache

The cache keeps the latest record of every tracked feed. Feeds and records are filed under the
network and the feed's key; a feed stays tracked when its record is gone. The accounted size is the
sum of a fixed amount per network and key, the lengths of the keys, and the sizes of the records.

* `PriceCache` is the cache, `PriceCache.addFeed` starts to track a feed,
* `PriceCache.get`, `getAll`, `getAllBySource` and `trackedFeeds` read it,
* `PriceCache.size` is the accounted size.

Writing is in `PriceRelay.Cache.Eviction`, since a write may push other records out. What becomes of
sizes that do not fit in a word is in `PriceRelay.Cache.Overflow`.
-/

namespace PriceRelay

/-- Where something is filed: a network, and the key of a feed on it. -/
structure Address where
  /-- the network -/
  network : NetworkId
  /-- the key of the feed -/
  key : String
deriving DecidableEq, Repr

/-- Addresses are in the order of their networks, on one network in the order of their keys. -/
instance : LT Address :=
  ⟨fun a b => a.network < b.network ∨ (a.network = b.network ∧ a.key < b.key)⟩

instance : DecidableLT Address := fun a b =>
  inferInstanceAs (Decidable (a.network < b.network ∨ (a.network = b.network ∧ a.key < b.key)))

/-- The address a feed is filed under. -/
def Feed.address (f : Feed) : Address := ⟨f.network, f.key⟩

/-- A record and its place in the order of all writes. -/
structure Entry where
  /-- the record -/
  record : Record
  /-- number of the write that put it here -/
  written : Nat
deriving DecidableEq, Repr

/-- A record that may be pushed out. -/
structure Candidate where
  /-- where it is filed -/
  address : Address
  /-- number of the write that put it there -/
  written : Nat
  /-- accounted bytes it would free -/
  size : UInt64
deriving DecidableEq, Repr

/-- Which records go first. -/
structure EvictionPolicy where
  /-- name of the policy -/
  name : String
  /-- the candidates, the first of them to go first -/
  order : List Candidate → List Candidate

/-- The cache. The number of the latest write and the two counts are whole numbers, where 64 bits
are enough for fewer than `2 ^ 64` calls. -/
structure PriceCache where
  /-- tracked feeds -/
  feeds : Table Address Feed := .empty
  /-- latest records -/
  entries : Table Address Entry := .empty
  /-- number of the latest write; the first is one -/
  writes : Nat := 0
  /-- how many updates were counted -/
  updates : Nat := 0
  /-- how many evictions were counted -/
  evictions : Nat := 0
  /-- how records are measured -/
  sizes : SizeRegistry := {}
  /-- accounted size that a write tries to stay within -/
  cap : UInt64
  /-- which records go first -/
  policy : EvictionPolicy

namespace PriceCache

/-- Cap of a cache that nothing else is said of. -/
def defaultCap : UInt64 := 10 * 1024 * 1024

/-- Fixed bytes per network. -/
def networkOverhead : UInt64 := 8

/-- Fixed bytes per key. -/
def keyOverhead : UInt64 := 8

/-- Each element once, where it stands last. -/
def distinct : List NetworkId → List NetworkId
  | [] => []
  | n :: ns => if n ∈ ns then distinct ns else n :: distinct ns

/-- The networks that something is filed under. -/
def networks (c : PriceCache) : List NetworkId := distinct (c.feeds.keys.map Address.network)

/-! ### Tracking -/

/-- Start to track a feed, if it is not tracked yet. -/
def addFeed (c : PriceCache) (f : Feed) : PriceCache :=
  if c.feeds.contains f.address then c
  else { c with feeds := c.feeds.insert f.address f }

/-- Every tracked feed. -/
def tracked (c : PriceCache) : List Feed := c.feeds.values

/-- The tracked feeds of a network. -/
def trackedFeeds (c : PriceCache) (n : NetworkId) : List Feed :=
  (c.feeds.toList.filter fun p => p.1.network = n).map Prod.snd

/-! ### Reading -/

/-- The latest record of a feed. -/
def get (c : PriceCache) (f : Feed) : Except Fault Record :=
  match c.entries.get? f.address with
  | some e => .ok e.record
  | none => .error (.notFound f)

/-- The records of a network by key. -/
def getAll (c : PriceCache) (n : NetworkId) : List (String × Record) :=
  (c.entries.toList.filter fun p => p.1.network = n).map fun p => (p.1.key, p.2.record)

/-- The records of a source on a network by identifier. -/
def getAllBySource (c : PriceCache) (n : NetworkId) (s : Source) : List (String × Record) :=
  (c.getAll n).filterMap fun p => (s.identifierOf? p.1).map fun i => (i, p.2)

/-! ### Size -/

/-- The accounted size of one record under its key. -/
def entrySize (sizes : SizeRegistry) (key : String) (r : Record) : UInt64 :=
  Text.byteLength key + keyOverhead + sizes.weigh r

/-- The accounted size of one tracked feed. -/
def feedSize (key : String) : UInt64 := Text.byteLength key + keyOverhead

/-- The sum of some sizes, of which only what fits in a word is left. -/
def total (sizes : List UInt64) : UInt64 := sizes.foldr (· + ·) 0

/-- The accounted size, as a build has it where additions wrap around. -/
def size (c : PriceCache) : UInt64 :=
  total (c.networks.map fun _ => networkOverhead) +
    total (c.feeds.keys.map fun a => feedSize a.key) +
    total (c.entries.toList.map fun p => entrySize c.sizes p.1.key p.2.record)

/-- The cache after its records were weighed: nothing changes but what is remembered of kinds. -/
def weighed (c : PriceCache) : PriceCache :=
  { c with sizes := c.sizes.rememberAll (c.entries.values.map Entry.record) }

/-- Register a size function for a kind of record. -/
def registerSize (c : PriceCache) (k : Record.Kind) (f : SizeFn) : PriceCache :=
  { c with sizes := c.sizes.register k f }

end PriceCache

end PriceRelay
