import Mathlib.Data.List.Perm.Basic
import PriceRelay.Proofs.Cache.Counts
import PriceRelay.Relay.Script
/-!
# Where the accounting fits in a word

The sizes that records report, and those that registered functions give, may be any words. Their
sum is kept in a word, too. Added up network by network, the records of each in any order, the sizes
come to the exact size put in a word: cut off where additions wrap around, and refused by one of the
additions where each is checked. So the accounting is exact as long as the exact size fits, and no
longer. Beyond that a relay that checks additions comes to its end when it measures its cache, and
where they wrap around a cache above its cap may pass for one that fits.

* `PriceCache.Walk` is an order in which networks and records are met, `PriceCache.sizeAlong` adds
  up along one,
* `PriceCache.Filed.sizeAlong_eq` says what it comes to in any arithmetic, and
  `PriceCache.Filed.overflows_iff` when there is no size where additions are checked,
* `PriceCache.Accounted` says that the accounting is exact, `PriceCache.accounted_iff_fits` when it
  is,
* `Relay.overflowed_write_iff` and `Relay.overflowed_measured_iff` say which writes and which reads
  a relay does not get over.
-/

namespace PriceRelay

/-! ### Sums in an arithmetic -/

/-- **Sums are kept like numbers.** -/
theorem Adder.total_map {ω α : Type} (ad : Adder ω) (l : List α) (kept : α → ω) (exact : α → Nat)
    (h : ∀ a, kept a = ad.ofNat (exact a)) :
    ad.total (l.map kept) = ad.ofNat (PriceCache.exactTotal (l.map exact)) := by
  suffices hfrom : ∀ n, (l.map kept).foldl ad.add (ad.ofNat n) =
      ad.ofNat (n + PriceCache.exactTotal (l.map exact)) by
    rw [total, hfrom, Nat.zero_add]
  induction l with
  | nil => exact fun n => rfl
  | cons a l ih =>
    intro n
    rw [List.map_cons, List.foldl_cons, h, ← ad.ofNat_add, ih, List.map_cons, Nat.add_assoc]
    rfl

namespace PriceCache

/-! ### Sums without a bound -/

theorem exactTotal_perm {sizes sizes' : List Nat} (h : sizes.Perm sizes') :
    exactTotal sizes = exactTotal sizes' :=
  h.foldr_eq 0

theorem le_exactTotal {sizes : List Nat} {n : Nat} (h : n ∈ sizes) : n ≤ exactTotal sizes := by
  induction sizes with
  | nil => cases h
  | cons m sizes ih =>
    change n ≤ m + exactTotal sizes
    cases h with
    | head => exact Nat.le_add_right _ _
    | tail _ h => exact Nat.le_add_left_of_le (ih h)

theorem exactTotal_map_add {α : Type} (f g : α → Nat) (l : List α) :
    exactTotal (l.map fun a => f a + g a) = exactTotal (l.map f) + exactTotal (l.map g) := by
  induction l with
  | nil => rfl
  | cons a l ih =>
    rw [exactTotal, exactTotal, exactTotal] at ih ⊢
    simp only [List.map_cons, List.foldr_cons, ih]
    omega

/-- A sum is that over the elements of one kind, and that over the others. -/
theorem exactTotal_filter_add {α : Type} (p : α → Bool) (f : α → Nat) (l : List α) :
    exactTotal ((l.filter p).map f) + exactTotal ((l.filter fun a => !p a).map f) =
      exactTotal (l.map f) := by
  induction l with
  | nil => rfl
  | cons a l ih =>
    rw [exactTotal, exactTotal, exactTotal] at ih ⊢
    cases hp : p a <;> simp [hp] <;> omega

/-- **A sum can be taken kind by kind.** -/
theorem exactTotal_partition {α κ : Type} [DecidableEq κ] (kind : α → κ) (f : α → Nat)
    {ks : List κ} (hks : ks.Nodup) {l : List α} (hl : ∀ a ∈ l, kind a ∈ ks) :
    exactTotal (ks.map fun k => exactTotal ((l.filter fun a => kind a = k).map f)) =
      exactTotal (l.map f) := by
  induction ks generalizing l with
  | nil =>
    rw [List.eq_nil_iff_forall_not_mem.mpr fun a ha => List.not_mem_nil (hl a ha)]
    rfl
  | cons k ks ih =>
    obtain ⟨hk, hks⟩ := List.nodup_cons.mp hks
    -- the elements of the first kind are split off, and the others have the kinds that are left
    have hothers : ∀ a ∈ l.filter (fun a => !decide (kind a = k)), kind a ∈ ks := by
      intro a ha
      obtain ⟨ha, hne⟩ := List.mem_filter.mp ha
      exact (List.mem_cons.mp (hl a ha)).resolve_left (by simpa using hne)
    have hsame : (ks.map fun k' => exactTotal
        (((l.filter fun a => !decide (kind a = k)).filter fun a => kind a = k').map f)) =
          ks.map fun k' => exactTotal ((l.filter fun a => kind a = k').map f) := by
      refine List.map_congr_left fun k' hk' => ?_
      rw [List.filter_filter]
      refine congrArg (fun l => exactTotal (l.map f)) (List.filter_congr fun a _ => ?_)
      have hne : k' ≠ k := fun heq => hk (heq ▸ hk')
      by_cases ha : kind a = k'
      · simp [ha, hne]
      · simp [ha]
    have hsum := ih hks hothers
    rw [hsame] at hsum
    rw [List.map_cons, exactTotal, List.foldr_cons]
    rw [exactTotal] at hsum
    rw [hsum]
    exact exactTotal_filter_add _ f l

/-! ### Adding up along a walk -/

/-- An order in which the networks of a cache, and the records and feeds of each, are met. -/
structure Walk (c : PriceCache) where
  /-- the networks as they are met -/
  networks : List NetworkId
  /-- each of them is met once -/
  networks_perm : networks.Perm c.networks
  /-- the records of a network as they are met -/
  records : NetworkId → List (Address × Entry)
  /-- each of them is met once -/
  records_perm : ∀ n, (records n).Perm (c.entries.toList.filter fun p => p.1.network = n)
  /-- the feeds of a network as they are met -/
  keys : NetworkId → List Address
  /-- each of them is met once -/
  keys_perm : ∀ n, (keys n).Perm (c.feeds.keys.filter fun a => a.network = n)

/-- Everything is met as it is listed. -/
def Walk.asListed (c : PriceCache) : Walk c :=
  ⟨_, .refl _, _, fun _ => .refl _, _, fun _ => .refl _⟩

/-- What is met under each network. -/
def Walk.slots {c : PriceCache} (w : Walk c) : List Slot :=
  w.networks.map fun n => ⟨w.records n, w.keys n⟩

section Along

variable {ω : Type} (ad : Adder ω) {c : PriceCache}

/-- The size of a cache, added up along a walk. -/
def sizeAlong (w : c.Walk) : ω := slotsSizeIn ad c.sizes w.slots

/-- Where additions are checked, the size is added up as everything is listed. -/
theorem size?_eq_sizeAlong (c : PriceCache) : c.size? = sizeAlong .checked (.asListed c) := rfl

theorem entrySizeIn_eq (sizes : SizeRegistry) (key : String) (r : Record) :
    entrySizeIn ad sizes key r = ad.ofNat (exactEntrySize sizes key r) := by
  rw [entrySizeIn, ← ad.ofNat_add, ← ad.ofNat_add]
  rfl

theorem slotSizeIn_eq (w : c.Walk) (n : NetworkId) :
    slotSizeIn ad c.sizes ⟨w.records n, w.keys n⟩ = ad.ofNat (8 +
      exactTotal ((c.entries.toList.filter fun p => p.1.network = n).map fun p =>
        exactEntrySize c.sizes p.1.key p.2.record) +
      exactTotal ((c.feeds.keys.filter fun a => a.network = n).map fun a =>
        a.key.utf8ByteSize + 8)) := by
  have hrecords := ad.total_map (w.records n) (fun p => entrySizeIn ad c.sizes p.1.key p.2.record)
    (fun p => exactEntrySize c.sizes p.1.key p.2.record) fun p => entrySizeIn_eq ad _ _ _
  have hkeys := ad.total_map (w.keys n) (fun a => feedSizeIn ad a.key)
    (fun a => a.key.utf8ByteSize + 8) fun a => (ad.ofNat_add _ _).symm
  rw [slotSizeIn, hrecords, hkeys, exactTotal_perm ((w.records_perm n).map _),
    exactTotal_perm ((w.keys_perm n).map _), ← ad.ofNat_add, ← ad.ofNat_add]
  rfl

/-- Every record is on a network that a feed is tracked on. -/
theorem Filed.network_mem (h : c.Filed) {p : Address × Entry} (hp : p ∈ c.entries.toList) :
    p.1.network ∈ c.networks := by
  obtain ⟨f, hf⟩ := h.entries_tracked (h.entries_sorted.mem_toList.mp hp)
  exact mem_distinct.mpr (List.mem_map.mpr ⟨p.1, h.feeds_sorted.mem_keys.mpr ⟨f, hf⟩, rfl⟩)

/-- **Along any walk, the sizes come to the exact size as it is kept.** -/
theorem Filed.sizeAlong_eq (h : c.Filed) (w : c.Walk) : sizeAlong ad w = ad.ofNat c.exactSize := by
  have hnetworks : w.networks.Nodup := w.networks_perm.nodup_iff.mpr (nodup_distinct _)
  have hentries := exactTotal_partition (fun p : Address × Entry => p.1.network)
    (fun p => exactEntrySize c.sizes p.1.key p.2.record) hnetworks
    fun p hp => w.networks_perm.mem_iff.mpr (h.network_mem hp)
  have hkeys := exactTotal_partition Address.network (fun a => a.key.utf8ByteSize + 8) hnetworks
    fun a ha => w.networks_perm.mem_iff.mpr (mem_distinct.mpr (List.mem_map_of_mem ha))
  have hfixed := exactTotal_perm (w.networks_perm.map fun _ => 8)
  have hslots := ad.total_map w.networks _ _ (slotSizeIn_eq ad w)
  rw [exactTotal_map_add, exactTotal_map_add, hentries, hkeys, hfixed] at hslots
  rw [sizeAlong, slotsSizeIn, Walk.slots, List.map_map, exactSize, exactTracked, exactRecords,
    Nat.add_right_comm]
  exact hslots

end Along

/-! ### Where it fits -/

/-- **Where additions are checked, there is no size just if the exact one does not fit.** -/
theorem Filed.overflows_iff {c : PriceCache} (h : c.Filed) :
    c.overflows = true ↔ UInt64.size ≤ c.exactSize := by
  rw [overflows, Option.isNone_iff_eq_none, size?_eq_sizeAlong, h.sizeAlong_eq]
  exact Adder.word?_eq_none_iff

/-- The accounting of a cache is exact. -/
structure Accounted (c : PriceCache) : Prop where
  /-- the size of a record is that of its key and eight bytes and what it is weighed with -/
  entry : ∀ a e, (a, e) ∈ c.entries.toList →
    (entrySize c.sizes a.key e.record).toNat = exactEntrySize c.sizes a.key e.record
  /-- none of the additions for it is refused -/
  entry_checked : ∀ a e, (a, e) ∈ c.entries.toList →
    entrySizeIn .checked c.sizes a.key e.record = some (entrySize c.sizes a.key e.record)
  /-- the size of the cache is the exact one -/
  size : c.size.toNat = c.exactSize
  /-- along no walk an addition for it is refused -/
  checked : ∀ w : c.Walk, sizeAlong .checked w = some c.size
  /-- a pass asks which records go first just if the exact size is above the cap -/
  noticed : ∀ spare, (c.pruneSparing spare).2.ordered.isSome = true ↔ c.cap.toNat < c.exactSize

/-- The cache as a call finds it after a history, the record it writes filed. -/
def filedAfter (sizes : SizeRegistry) (cap : UInt64) (policy : EvictionPolicy)
    (history : List (EvictionPolicy × CacheCall)) (call : CacheCall) : PriceCache :=
  ((fresh sizes cap policy).after history).filedBy call

variable {c : PriceCache}

theorem exactEntrySize_le {a : Address} {e : Entry} (he : (a, e) ∈ c.entries.toList) :
    exactEntrySize c.sizes a.key e.record ≤ c.exactSize :=
  Nat.le_add_left_of_le (le_exactTotal (List.mem_map.mpr ⟨(a, e), he, rfl⟩))

theorem noticed_iff (c : PriceCache) (spare : Option Address) :
    (c.pruneSparing spare).2.ordered.isSome = true ↔ c.cap < c.size := by
  rw [pruneSparing]
  split
  · next hfits => exact iff_of_false Bool.false_ne_true (UInt64.not_lt.mpr hfits)
  · next hover => exact iff_of_true rfl (UInt64.not_le.mp hover)

/-- **Below the bound of words the accounting is exact.** -/
theorem Filed.accounted (h : c.Filed) (hfits : c.exactSize < UInt64.size) : c.Accounted where
  entry a e he := by
    rw [entrySize_eq_ofNat]
    exact UInt64.toNat_ofNat_of_lt (Nat.lt_of_le_of_lt (exactEntrySize_le he) hfits)
  entry_checked a e he := by
    rw [entrySizeIn_eq, entrySize_eq_ofNat]
    exact Adder.word?_of_lt (Nat.lt_of_le_of_lt (exactEntrySize_le he) hfits)
  size := toNat_size hfits
  checked w := by
    rw [h.sizeAlong_eq, size_eq_ofNat]
    exact Adder.word?_of_lt hfits
  noticed spare := by
    rw [noticed_iff, UInt64.lt_iff_toNat_lt, toNat_size hfits]

/-- **The accounting is exact just if the exact size fits in a word.** After any calls, whatever
sizes are reported and whatever functions are registered: if it fits, each size is the exact one and
no addition is refused. If it does not, one of them is, in whatever order networks and records are
met, so that a relay that checks additions ends there, with the record filed that it came to make
room for. And where additions wrap around, a pass sees no more than the remainder, so that it leaves
a cache alone that is above its cap whenever the remainder is not. -/
theorem accounted_iff_fits (sizes : SizeRegistry) (cap : UInt64) (policy : EvictionPolicy)
    (history : List (EvictionPolicy × CacheCall)) (call : CacheCall) :
    let c := filedAfter sizes cap policy history call
    (c.Accounted ↔ c.exactSize < UInt64.size) ∧
      (∀ w : c.Walk, sizeAlong .wrapping w = c.size ∧ sizeAlong .checked w = c.size?) ∧
      (c.overflows = true ↔ UInt64.size ≤ c.exactSize) ∧
      ∀ spare, (c.pruneSparing spare).2.ordered.isSome = true ↔
        c.cap.toNat < c.exactSize % UInt64.size := by
  intro c
  have h : c.Filed := ((filed_fresh sizes cap policy).after history).filedBy call
  refine ⟨⟨fun hexact => ?_, h.accounted⟩, fun w => ⟨?_, ?_⟩, h.overflows_iff, fun spare => ?_⟩
  · rw [← hexact.size]
    exact c.size.toNat_lt
  · rw [h.sizeAlong_eq, size_eq_ofNat]
    rfl
  · rw [size?_eq_sizeAlong, h.sizeAlong_eq, h.sizeAlong_eq]
  · rw [noticed_iff, UInt64.lt_iff_toNat_lt, size_eq_ofNat, UInt64.toNat_ofNat']

/-- A record that reports almost all that fits in a word, and a small one. The relay ends at the
write of the second, when both are filed and far above the cap. Where additions wrap around, it goes
on with a size below the cap, and nothing goes. -/
theorem overfull_overflows :
    let feed (i : String) : Feed := ⟨1, .custom "morpher", i⟩
    let record (i : String) (size : UInt64) : Record :=
      .custom ⟨"market", .custom "morpher", 1, i, 0, 0, .epoch 0, some size⟩
    let first : Write := ⟨feed "A", record "A" 18446744073709551516⟩
    let second : Write := ⟨feed "B", record "B" 100⟩
    let usual := EvictionPolicy.leastRecentlyWritten
    let c := filedAfter {} 1000 usual [(usual, .put first.feed first.record)]
      (.put second.feed second.record)
    let r : Relay Rehearsal := {
      providers := Rehearsal.providers false
      outside := {}
      cache := fresh {} 1000 usual
      limiter := .ofCount 1 }
    (c.exactSize = UInt64.size + 104 ∧ c.get second.feed = .ok second.record ∧ c.size? = none) ∧
      ((r.write first).overflowed = false ∧ ((r.write first).write second).overflowed = true) ∧
      (c.size = 104 ∧ ((r.write first).write second).cache.entries.size = 2) ∧ ¬ c.Accounted := by
  intro feed record first second usual c r
  have hexact : c.exactSize = UInt64.size + 104 := by decide +kernel
  have hsize : c.size = 104 := by decide +kernel
  refine ⟨⟨hexact, by decide +kernel, by decide +kernel⟩, ⟨by decide +kernel, by decide +kernel⟩,
    ⟨hsize, by decide +kernel⟩, fun h => ?_⟩
  have heq := h.size
  rw [hexact, hsize] at heq
  exact absurd heq (by decide)

end PriceCache

/-! ### Relays -/

namespace Relay

variable {σ : Type} {r : Relay σ}

/-- A relay does not get over a write whose record makes the exact size too large. -/
theorem overflowed_write_iff (h : r.cache.Filed) (w : Write) :
    (r.write w).overflowed = true ↔
      r.overflowed = true ∨ UInt64.size ≤ (r.cache.file w.feed w.record).exactSize := by
  rw [← (h.file w.feed w.record).overflows_iff, ← Bool.or_eq_true]
  rfl

/-- Nor over a read that measures such a cache, or a pass on demand. -/
theorem overflowed_measured_iff (h : r.cache.Filed) :
    (r.measured.overflowed = true ↔ r.overflowed = true ∨ UInt64.size ≤ r.cache.exactSize) ∧
      (r.prune.2.overflowed = true ↔ r.overflowed = true ∨ UInt64.size ≤ r.cache.exactSize) := by
  rw [← h.overflows_iff, ← Bool.or_eq_true]
  exact ⟨Iff.rfl, Iff.rfl⟩

end Relay

end PriceRelay
