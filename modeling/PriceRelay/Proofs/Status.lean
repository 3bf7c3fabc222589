import Mathlib.Data.List.Sort
import PriceRelay.Proofs.Cache.Counts
import PriceRelay.Status
/-!
# What a snapshot shows

A snapshot asks a cache three things: which feeds it tracks, what record each of them has, and what
it counts. The answers fit together. Every record lies where a feed is tracked, so the feeds that
have a record are as many as the records, and what is accounted for can be read off the feeds.

* `PriceCache.recordSize` is the size of the record of a feed, and `PriceCache.footprint` what a
  snapshot accounts for,
* `Status.Shows` says that a snapshot shows what a cache holds,
* `PriceCache.Filed.addresses_take` says that the feeds shown lie where the records do,
* `Status.take_shows` shows it of every cache that some calls led to.
-/

namespace PriceRelay

namespace PriceCache

/-- The size of the record that a feed has under its key; a feed without a record has none. -/
def recordSize (c : PriceCache) (f : Feed) : Nat :=
  match c.get f with
  | .ok r => exactEntrySize c.sizes f.key r
  | .error _ => 0

/-- What the feeds of a snapshot account for, without a bound: eight bytes per network, the key of
every tracked feed with eight more, and the records of the feeds shown. -/
def footprint (c : PriceCache) (s : Status) : Nat :=
  8 * s.stats.networks + exactTotal (c.tracked.map fun f => f.key.utf8ByteSize + 8) +
    exactTotal (s.feeds.map fun shown => c.recordSize shown.feed)

end PriceCache

/-- What is shown of a feed that has this record. -/
def FeedStatus.ofRecord (symbols : Feed → Option String) (f : Feed) (r : Record) : FeedStatus :=
  ⟨f, symbols f, r.magnitude, r.scale, r.observed⟩

/-- A snapshot shows what a cache holds. -/
structure Status.Shows (c : PriceCache) (symbols : Feed → Option String) (s : Status) : Prop where
  /-- what is shown is a tracked feed, its symbol, and what a look-up of it tells -/
  mem_feeds : ∀ shown, shown ∈ s.feeds ↔
    ∃ f ∈ c.tracked, ∃ r, c.get f = .ok r ∧ shown = .ofRecord symbols f r
  /-- no record is left out -/
  complete : ∀ f r, c.get f = .ok r → .ofRecord symbols f r ∈ s.feeds
  /-- no feed is shown twice -/
  nodup : (s.feeds.map FeedStatus.feed).Nodup
  /-- they are shown in the order of their networks, on one network in that of their keys -/
  ordered : s.feeds.Pairwise fun a b => a.feed.network < b.feed.network ∨
    (a.feed.network = b.feed.network ∧ a.feed.key < b.feed.key)
  /-- they are as many as the records counted -/
  records : s.feeds.length = s.stats.records
  /-- every tracked feed is counted -/
  feeds : s.stats.feeds = c.tracked.length
  /-- there are no more records than feeds -/
  records_le : s.stats.records ≤ s.stats.feeds
  /-- the networks of the tracked feeds are counted, each once -/
  networks : ∃ ns : List NetworkId, ns.length = s.stats.networks ∧ ns.Nodup ∧
    ∀ n, n ∈ ns ↔ ∃ f ∈ c.tracked, f.network = n
  /-- the accounted size is what the feeds account for, if that fits in a word -/
  size : c.footprint s < UInt64.size → s.stats.size.toNat = c.footprint s

namespace PriceCache

variable {c : PriceCache}

/-! ### Networks -/

/-- The networks are those that some feed is tracked on. -/
theorem Filed.mem_networks (h : c.Filed) {n : NetworkId} :
    n ∈ c.networks ↔ ∃ f ∈ c.tracked, f.network = n := by
  rw [networks, mem_distinct, List.mem_map]
  constructor
  · rintro ⟨a, ha, rfl⟩
    obtain ⟨f, hf⟩ := h.feeds_sorted.mem_keys.mp ha
    obtain rfl := h.feeds_address hf
    exact ⟨f, h.mem_tracked.mpr hf, rfl⟩
  · rintro ⟨f, hf, rfl⟩
    exact ⟨f.address, h.feeds_sorted.mem_keys.mpr ⟨f, h.mem_tracked.mp hf⟩, rfl⟩

/-! ### The feeds that are shown -/

variable (symbols : Feed → Option String) (endpoints : List EndpointRecord)

theorem mem_take {shown : FeedStatus} : shown ∈ (Status.take c symbols endpoints).feeds ↔
    ∃ f ∈ c.tracked, ∃ r, c.get f = .ok r ∧ shown = .ofRecord symbols f r := by
  refine List.mem_filterMap.trans (exists_congr fun f => and_congr_right fun _ => ?_)
  rw [Status.ofFeed?]
  cases c.get f <;> simp [FeedStatus.ofRecord, eq_comm]

/-- A feed that has a record is tracked. -/
theorem Filed.tracked_of_get (h : c.Filed) {f : Feed} {r : Record} (hr : c.get f = .ok r) :
    f ∈ c.tracked := by
  obtain ⟨e, he, -⟩ := get_eq_ok_iff.mp hr
  obtain ⟨g, hg⟩ := h.entries_tracked he
  obtain rfl := h.get?_feeds hg
  exact h.mem_tracked.mpr hg

theorem Filed.pairwise_take (h : c.Filed) : (Status.take c symbols endpoints).feeds.Pairwise
    fun a b => a.feed.address < b.feed.address := by
  refine List.Pairwise.filterMap _ (fun f g hlt a ha b hb => ?_) h.pairwise_tracked
  have hfeed {f : Feed} {shown : FeedStatus} (hs : Status.ofFeed? c symbols f = some shown) :
      shown.feed = f := by
    rw [Status.ofFeed?] at hs
    split at hs
    · cases hs
    · rw [← Option.some.inj hs]
  rw [hfeed ha, hfeed hb]
  exact hlt

/-- **The feeds shown lie where the records do**, in the same order. -/
theorem Filed.addresses_take (h : c.Filed) :
    ((Status.take c symbols endpoints).feeds.map fun shown => shown.feed.address) =
      c.entries.keys := by
  have hshown := List.pairwise_map.mpr (h.pairwise_take symbols endpoints)
  have hkeys : c.entries.keys.Pairwise (· < ·) := List.pairwise_map.mpr h.entries_sorted
  refine hshown.eq_of_mem_iff hkeys fun a => ?_
  rw [h.entries_sorted.mem_keys, List.mem_map]
  constructor
  · rintro ⟨shown, hmem, rfl⟩
    obtain ⟨f, -, r, hr, rfl⟩ := (mem_take symbols endpoints).mp hmem
    obtain ⟨e, he, -⟩ := get_eq_ok_iff.mp hr
    exact ⟨e, he⟩
  · rintro ⟨e, he⟩
    -- a record lies where a feed is tracked, and is what a look-up of the feed finds
    obtain ⟨f, hf⟩ := h.entries_tracked he
    obtain rfl := h.feeds_address hf
    have hr : c.get f = .ok e.record := get_eq_ok_iff.mpr ⟨e, he, rfl⟩
    exact ⟨_, (mem_take symbols endpoints).mpr ⟨f, h.mem_tracked.mpr hf, e.record, hr, rfl⟩, rfl⟩

theorem Filed.length_take (h : c.Filed) :
    (Status.take c symbols endpoints).feeds.length = c.entries.size := by
  rw [← c.entries.length_keys, ← h.addresses_take symbols endpoints, List.length_map]

/-! ### What they account for -/

theorem exactTotal_replicate (n size : Nat) :
    exactTotal (List.replicate n size) = size * n := by
  induction n with
  | zero => rfl
  | succ n ih =>
    rw [List.replicate_succ, exactTotal, List.foldr_cons]
    rw [exactTotal] at ih
    rw [ih, Nat.mul_succ, Nat.add_comm]

/-- The size of the record that lies under an address; where none lies, there is none. -/
def sizeAt (c : PriceCache) (a : Address) : Nat :=
  match c.entries.get? a with
  | some e => exactEntrySize c.sizes a.key e.record
  | none => 0

theorem recordSize_eq_sizeAt (c : PriceCache) (f : Feed) : c.recordSize f = c.sizeAt f.address := by
  rw [recordSize, get, sizeAt]
  cases c.entries.get? f.address <;> rfl

theorem Filed.exactRecords_eq (h : c.Filed) :
    exactRecords c.sizes c.entries = exactTotal (c.entries.keys.map c.sizeAt) := by
  rw [exactRecords, Table.keys, List.map_map]
  refine congrArg exactTotal (List.map_congr_left fun p hp => ?_)
  have hget : c.entries.get? p.1 = some p.2 := h.entries_sorted.mem_toList.mp hp
  rw [Function.comp_apply, sizeAt, hget]

/-- **The feeds account for the whole cache.** -/
theorem Filed.footprint_take (h : c.Filed) :
    c.footprint (Status.take c symbols endpoints) = c.exactSize := by
  have hnetworks : exactTotal (c.networks.map fun _ => 8) = 8 * c.networks.length := by
    rw [List.map_const', exactTotal_replicate]
  have hkeys : (c.feeds.keys.map fun a => a.key.utf8ByteSize + 8) =
      c.tracked.map fun f => f.key.utf8ByteSize + 8 := by
    rw [tracked, Table.keys, Table.values, List.map_map, List.map_map]
    refine List.map_congr_left fun p hp => ?_
    have haddress : p.2.address = p.1 := h.feeds_address (h.feeds_sorted.mem_toList.mp hp)
    simp only [Function.comp_apply, ← haddress]
    rfl
  have hrecords : exactRecords c.sizes c.entries =
      exactTotal ((Status.take c symbols endpoints).feeds.map fun shown =>
        c.recordSize shown.feed) := by
    rw [h.exactRecords_eq, ← h.addresses_take symbols endpoints, List.map_map]
    exact congrArg exactTotal
      (List.map_congr_left fun shown _ => (recordSize_eq_sizeAt c shown.feed).symm)
  rw [exactSize, exactTracked, hnetworks, hkeys, hrecords]
  rfl

end PriceCache

/-- **A snapshot shows what the cache holds**, after any calls to a fresh one: the tracked feeds
that have a record, and no others, each once and in order, with what a look-up tells of it and its
symbol. So they are as many as the records that are counted, and the accounted size is that of the
networks, of the tracked feeds, and of the records of the feeds shown. -/
theorem Status.take_shows (sizes : SizeRegistry) (cap : UInt64) (policy : EvictionPolicy)
    (history : List (EvictionPolicy × CacheCall)) (symbols : Feed → Option String)
    (endpoints : List EndpointRecord) :
    (Status.take ((PriceCache.fresh sizes cap policy).after history) symbols endpoints).Shows
      ((PriceCache.fresh sizes cap policy).after history) symbols := by
  have h := (PriceCache.filed_fresh sizes cap policy).after history
  exact {
    mem_feeds := fun _ => PriceCache.mem_take symbols endpoints
    complete := fun f r hr =>
      (PriceCache.mem_take symbols endpoints).mpr ⟨f, h.tracked_of_get hr, r, hr, rfl⟩
    nodup := List.pairwise_map.mpr <| (h.pairwise_take symbols endpoints).imp fun hlt heq => by
      rw [heq] at hlt
      exact Std.Irrefl.irrefl _ hlt
    ordered := h.pairwise_take symbols endpoints
    records := h.length_take symbols endpoints
    feeds := (List.length_map Prod.snd).symm
    records_le := (h.length_take symbols endpoints).symm.trans_le
      ((List.length_filterMap_le _ _).trans_eq (List.length_map Prod.snd))
    networks := ⟨_, rfl, PriceCache.nodup_distinct _, fun _ => h.mem_networks⟩
    size := fun hfits => by
      rw [h.footprint_take symbols endpoints] at hfits ⊢
      exact PriceCache.toNat_size hfits }

/-- Two feeds are tracked, one has a record. -/
example :
    let feed (i : String) : Feed := ⟨1, .chainlink, i⟩
    let record : Record := .custom ⟨"spot", .chainlink, 1, "0xA", 7, -8, .epoch 5, some 100⟩
    let c := ((((PriceCache.ofCap 1000).addFeed (feed "0xB")).addFeed (feed "0xA")).put
      (feed "0xA") record).1
    let s := Status.take c (fun f => if f = feed "0xA" then some "ETH/USD" else none) []
    s.feeds = [⟨feed "0xA", some "ETH/USD", 7, -8, .epoch 5⟩] ∧ s.stats.feeds = 2 ∧
      s.stats.size = 8 + (13 + 8) + (13 + 8) + (13 + 8 + 100) := by
  decide

end PriceRelay
