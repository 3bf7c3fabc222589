import PriceRelay.Cache.Eviction
/-!
# Sizes that do not fit in a word

Sizes are added in words, and a record or a registered function may give any word. What becomes of
a sum that does not fit depends on the build. `PriceCache.size` and all that rests on it follow a
build where additions wrap around. In a build where they are checked, the first one that does not
fit ends the program: there is no size then, although the record of the write that came to measure
the cache is filed already.

* `Adder` is an arithmetic that sizes are added in: `Adder.wrapping` and `Adder.checked`,
* `Slot` is what is filed under a network, `Slot.total` adds up some of them,
* `PriceCache.size?` is the size where additions are checked, `PriceCache.overflows` says that there
  is none.
-/

namespace PriceRelay

/-! ### Arithmetics -/

/-- An arithmetic that sizes are added in. -/
structure Adder (ω : Type) where
  /-- a number as it is kept -/
  ofNat : Nat → ω
  /-- the sum of two kept numbers -/
  add : ω → ω → ω
  /-- a sum is kept like a number -/
  ofNat_add : ∀ m n, ofNat (m + n) = add (ofNat m) (ofNat n)

namespace Adder

/-- Words, of which only what fits is left. -/
def wrapping : Adder UInt64 where
  ofNat := UInt64.ofNat
  add := (· + ·)
  ofNat_add := UInt64.ofNat_add

/-- The word of a number that fits in one. -/
def word? (n : Nat) : Option UInt64 := if n < UInt64.size then some (UInt64.ofNat n) else none

/-- The sum of two words that are there, if it fits. -/
def add? (a b : Option UInt64) : Option UInt64 :=
  a.bind fun a => b.bind fun b => word? (a.toNat + b.toNat)

theorem word?_of_lt {n : Nat} (h : n < UInt64.size) : word? n = some (UInt64.ofNat n) := if_pos h

theorem word?_eq_none_iff {n : Nat} : word? n = none ↔ UInt64.size ≤ n := by
  rw [word?]
  split <;> simp <;> omega

theorem word?_add (m n : Nat) : word? (m + n) = add? (word? m) (word? n) := by
  by_cases hm : m < UInt64.size
  · by_cases hn : n < UInt64.size
    · have hm' : (UInt64.ofNat m).toNat = m := UInt64.toNat_ofNat_of_lt hm
      have hn' : (UInt64.ofNat n).toNat = n := UInt64.toNat_ofNat_of_lt hn
      rw [word?_of_lt hm, word?_of_lt hn, add?, Option.bind_some, Option.bind_some, hm', hn']
    · rw [word?_eq_none_iff.mpr (Nat.not_lt.mp hn), word?_eq_none_iff.mpr (by omega)]
      cases word? m <;> rfl
  · rw [word?_eq_none_iff.mpr (Nat.not_lt.mp hm), word?_eq_none_iff.mpr (by omega)]
    rfl

/-- Words, where a sum that does not fit is none. -/
def checked : Adder (Option UInt64) where
  ofNat := word?
  add := add?
  ofNat_add := word?_add

/-- The sum of some kept numbers, from the first to the last. -/
def total {ω : Type} (ad : Adder ω) (sizes : List ω) : ω := sizes.foldl ad.add (ad.ofNat 0)

end Adder

/-! ### Adding up network by network -/

/-- What is filed under a network, in the order in which it is met. -/
structure Slot where
  /-- the records with their addresses -/
  records : List (Address × Entry)
  /-- the addresses of the tracked feeds -/
  keys : List Address

namespace PriceCache

variable {ω : Type} (ad : Adder ω) (sizes : SizeRegistry)

/-- The size of one record under its key. -/
def entrySizeIn (key : String) (r : Record) : ω :=
  ad.add (ad.add (ad.ofNat key.utf8ByteSize) (ad.ofNat keyOverhead.toNat))
    (ad.ofNat (sizes.weigh r).toNat)

/-- The size of one tracked feed. -/
def feedSizeIn (key : String) : ω := ad.add (ad.ofNat key.utf8ByteSize) (ad.ofNat keyOverhead.toNat)

/-- The size of a network: a fixed amount, its records, and its feeds. -/
def slotSizeIn (slot : Slot) : ω :=
  ad.add
    (ad.add (ad.ofNat networkOverhead.toNat)
      (ad.total (slot.records.map fun p => entrySizeIn ad sizes p.1.key p.2.record)))
    (ad.total (slot.keys.map fun a => feedSizeIn ad a.key))

/-- The size of some networks, as they are met. -/
def slotsSizeIn (slots : List Slot) : ω := ad.total (slots.map (slotSizeIn ad sizes))

/-- What is filed under each network, as it is listed. -/
def slots (c : PriceCache) : List Slot :=
  c.networks.map fun n =>
    ⟨c.entries.toList.filter fun p => p.1.network = n, c.feeds.keys.filter fun a => a.network = n⟩

/-- The accounted size where additions are checked, if they all fit. -/
def size? (c : PriceCache) : Option UInt64 := slotsSizeIn .checked c.sizes c.slots

/-- Whether measuring the cache ends the program where additions are checked. -/
def overflows (c : PriceCache) : Bool := c.size?.isNone

end PriceCache

end PriceRelay
