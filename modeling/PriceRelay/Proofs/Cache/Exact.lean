import PriceRelay.Proofs.Cache.Filing
/-!
# The size without a bound

The accounted size is a sum in 64-bit words. Summed without a bound, it is what the words agree with
as long as it fits in one.

* `PriceCache.exactSize` is the size without a bound,
* `PriceCache.size_eq_ofNat` says that the accounted size is this size put in a word,
* `PriceCache.exactRecords_erase` says what a record adds to it.
-/

namespace PriceRelay

namespace PriceCache

/-- The sum of some sizes, without a bound. -/
def exactTotal (sizes : List Nat) : Nat := sizes.foldr (· + ·) 0

/-- The size of one record under its key. -/
def exactEntrySize (sizes : SizeRegistry) (key : String) (r : Record) : Nat :=
  key.utf8ByteSize + 8 + (sizes.weigh r).toNat

/-- The size of some records. -/
def exactRecords (sizes : SizeRegistry) (entries : Table Address Entry) : Nat :=
  exactTotal (entries.toList.map fun p => exactEntrySize sizes p.1.key p.2.record)

/-- The size of what is tracked: eight bytes per network, and every key with eight more. -/
def exactTracked (c : PriceCache) : Nat :=
  exactTotal (c.networks.map fun _ => 8) +
    exactTotal (c.feeds.keys.map fun a => a.key.utf8ByteSize + 8)

/-- The size of the cache. -/
def exactSize (c : PriceCache) : Nat := c.exactTracked + exactRecords c.sizes c.entries

theorem total_eq_ofNat {α : Type} (size : α → UInt64) (exact : α → Nat)
    (h : ∀ a, size a = UInt64.ofNat (exact a)) (l : List α) :
    total (l.map size) = UInt64.ofNat (exactTotal (l.map exact)) := by
  induction l with
  | nil => rfl
  | cons a l ih =>
    rw [total, exactTotal] at ih ⊢
    rw [List.map_cons, List.map_cons, List.foldr_cons, List.foldr_cons, ih, h, UInt64.ofNat_add]

theorem entrySize_eq_ofNat (sizes : SizeRegistry) (key : String) (r : Record) :
    entrySize sizes key r = UInt64.ofNat (exactEntrySize sizes key r) := by
  rw [entrySize, exactEntrySize, UInt64.ofNat_add, UInt64.ofNat_add, UInt64.ofNat_toNat]
  rfl

theorem feedSize_eq_ofNat (key : String) : feedSize key = UInt64.ofNat (key.utf8ByteSize + 8) := by
  rw [feedSize, UInt64.ofNat_add]
  rfl

/-- **The accounted size is the exact one, put in a word.** -/
theorem size_eq_ofNat (c : PriceCache) : c.size = UInt64.ofNat c.exactSize := by
  have hnetworks := total_eq_ofNat (fun _ : NetworkId => networkOverhead) (fun _ => 8)
    (fun _ => rfl) c.networks
  have hfeeds := total_eq_ofNat (fun a : Address => feedSize a.key)
    (fun a => a.key.utf8ByteSize + 8) (fun a => feedSize_eq_ofNat a.key) c.feeds.keys
  have hentries := total_eq_ofNat
    (fun p : Address × Entry => entrySize c.sizes p.1.key p.2.record)
    (fun p => exactEntrySize c.sizes p.1.key p.2.record)
    (fun p => entrySize_eq_ofNat c.sizes p.1.key p.2.record) c.entries.toList
  rw [size, hnetworks, hfeeds, hentries, exactSize, exactTracked, exactRecords, UInt64.ofNat_add,
    UInt64.ofNat_add]

theorem toNat_size {c : PriceCache} (h : c.exactSize < UInt64.size) :
    c.size.toNat = c.exactSize := by
  rw [size_eq_ofNat]
  exact UInt64.toNat_ofNat_of_lt h

/-! ### Taking a record out -/

theorem exactTotal_filter_ne {exact : Address × Entry → Nat} {a : Address} {e : Entry} :
    ∀ {l : List (Address × Entry)}, l.Pairwise (fun p q => p.1 < q.1) →
      Table.find? a l = some e →
      exactTotal ((l.filter fun p => p.1 ≠ a).map exact) + exact (a, e) =
        exactTotal (l.map exact) := by
  intro l
  induction l with
  | nil => intro _ h; cases h
  | cons p l ih =>
    obtain ⟨b, e'⟩ := p
    intro hl h
    obtain ⟨hhd, htl⟩ := List.pairwise_cons.mp hl
    rw [Table.find?] at h
    split at h
    · next he =>
      obtain rfl := Option.some.inj h
      subst he
      -- the key stands here and nowhere after, so the rest stays whole
      have hrest : l.filter (fun p => p.1 ≠ b) = l := by
        refine List.filter_eq_self.mpr fun p hp => decide_eq_true fun heq => ?_
        have hlt : b < p.1 := hhd p hp
        rw [heq] at hlt
        exact Std.Irrefl.irrefl _ hlt
      rw [List.filter_cons_of_neg (by simp), hrest, List.map_cons]
      exact Nat.add_comm _ _
    · next hne =>
      have hsum := ih htl h
      rw [List.filter_cons_of_pos (by simpa using hne), List.map_cons, List.map_cons]
      change exact (b, e') + exactTotal _ + exact (a, e) = exact (b, e') + exactTotal _
      omega

/-- The records are as large as one of them and the others. -/
theorem exactRecords_erase (sizes : SizeRegistry) {t : Table Address Entry} (h : t.Sorted)
    {a : Address} {e : Entry} (he : t.get? a = some e) :
    exactRecords sizes (t.erase a) + exactEntrySize sizes a.key e.record =
      exactRecords sizes t :=
  exactTotal_filter_ne h he

end PriceCache

end PriceRelay
