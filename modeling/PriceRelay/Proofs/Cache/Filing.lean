import PriceRelay.Cache.Eviction
import PriceRelay.Proofs.Feed
import PriceRelay.Proofs.Table
/-!
# How the cache files things

The two tables of the cache are in order, a feed is listed under its own address, and a record lies
only where a feed is listed. All calls keep that, whatever the policy makes of its candidates.

* `PriceCache.Filed` is that invariant,
* `PriceCache.Filed.get?_addFeed` and `PriceCache.get?_file` say what tracking and filing do to the
  tables,
* `PriceCache.Pass.Follows` says what a pass has done so far: the records of the feeds it names are
  gone, and nothing else is.
-/

namespace PriceRelay

namespace PriceCache

/-- Both tables are in order, and every record lies under the address of a tracked feed. -/
structure Filed (c : PriceCache) : Prop where
  /-- the feeds are in the order of their addresses -/
  feeds_sorted : c.feeds.Sorted
  /-- so are the records -/
  entries_sorted : c.entries.Sorted
  /-- a feed is listed under its own address -/
  feeds_address : ∀ {a f}, c.feeds.get? a = some f → f.address = a
  /-- a record lies only where a feed is listed -/
  entries_tracked : ∀ {a e}, c.entries.get? a = some e → ∃ f, c.feeds.get? a = some f

/-- A cache that nothing was done to yet. -/
def fresh (sizes : SizeRegistry) (cap : UInt64) (policy : EvictionPolicy) : PriceCache where
  sizes := sizes
  cap := cap
  policy := policy

theorem filed_fresh (sizes : SizeRegistry) (cap : UInt64) (policy : EvictionPolicy) :
    (fresh sizes cap policy).Filed where
  feeds_sorted := Table.sorted_empty
  entries_sorted := Table.sorted_empty
  feeds_address h := by cases h
  entries_tracked h := by cases h

/-- What is remembered of kinds has no part in the filing. -/
theorem Filed.with_sizes {c : PriceCache} (h : c.Filed) (sizes : SizeRegistry) :
    Filed { c with sizes := sizes } where
  feeds_sorted := h.feeds_sorted
  entries_sorted := h.entries_sorted
  feeds_address := h.feeds_address
  entries_tracked := h.entries_tracked

theorem Filed.get?_feeds {c : PriceCache} (h : c.Filed) {f g : Feed} :
    c.feeds.get? f.address = some g → g = f := fun hg =>
  Feed.address_inj.mp (h.feeds_address hg)

/-! ### Networks -/

theorem mem_distinct {n : NetworkId} {ns : List NetworkId} : n ∈ distinct ns ↔ n ∈ ns := by
  induction ns with
  | nil => rfl
  | cons m ns ih =>
    rw [distinct]
    split
    · next hm =>
      rw [ih, List.mem_cons]
      exact ⟨.inr, fun h => h.elim (fun heq => heq ▸ hm) id⟩
    · rw [List.mem_cons, List.mem_cons, ih]

theorem nodup_distinct (ns : List NetworkId) : (distinct ns).Nodup := by
  induction ns with
  | nil => exact List.nodup_nil
  | cons m ns ih =>
    rw [distinct]
    split
    · exact ih
    · next hm => exact List.nodup_cons.mpr ⟨mt mem_distinct.mp hm, ih⟩

/-! ### Tracking and filing -/

@[simp] theorem entries_addFeed (c : PriceCache) (f : Feed) :
    (c.addFeed f).entries = c.entries := by
  rw [addFeed]
  split <;> rfl

@[simp] theorem writes_addFeed (c : PriceCache) (f : Feed) : (c.addFeed f).writes = c.writes := by
  rw [addFeed]
  split <;> rfl

@[simp] theorem updates_addFeed (c : PriceCache) (f : Feed) :
    (c.addFeed f).updates = c.updates := by
  rw [addFeed]
  split <;> rfl

@[simp] theorem cap_addFeed (c : PriceCache) (f : Feed) : (c.addFeed f).cap = c.cap := by
  rw [addFeed]
  split <;> rfl

@[simp] theorem policy_addFeed (c : PriceCache) (f : Feed) : (c.addFeed f).policy = c.policy := by
  rw [addFeed]
  split <;> rfl

@[simp] theorem cap_file (c : PriceCache) (f : Feed) (r : Record) : (c.file f r).cap = c.cap :=
  cap_addFeed c f

@[simp] theorem policy_file (c : PriceCache) (f : Feed) (r : Record) :
    (c.file f r).policy = c.policy :=
  policy_addFeed c f

theorem Filed.get?_addFeed {c : PriceCache} (h : c.Filed) (f : Feed) (a : Address) :
    (c.addFeed f).feeds.get? a = if f.address = a then some f else c.feeds.get? a := by
  rw [addFeed]
  split
  · next hc =>
    obtain ⟨g, hg⟩ := Option.isSome_iff_exists.mp hc
    obtain rfl := h.get?_feeds hg
    split
    · next ha => rw [← ha, hg]
    · rfl
  · exact Table.get?_insert _ _ _ _

theorem Filed.addFeed {c : PriceCache} (h : c.Filed) (f : Feed) : (c.addFeed f).Filed where
  feeds_sorted := by
    rw [PriceCache.addFeed]
    split
    · exact h.feeds_sorted
    · exact h.feeds_sorted.insert _ _
  entries_sorted := by rw [entries_addFeed]; exact h.entries_sorted
  feeds_address := by
    intro a g hg
    rw [h.get?_addFeed] at hg
    split at hg
    · next ha => rw [← Option.some.inj hg, ha]
    · exact h.feeds_address hg
  entries_tracked := by
    intro a e he
    rw [entries_addFeed] at he
    rw [h.get?_addFeed]
    split
    · exact ⟨f, rfl⟩
    · exact h.entries_tracked he

theorem get?_file (c : PriceCache) (f : Feed) (r : Record) (a : Address) :
    (c.file f r).entries.get? a =
      if f.address = a then some ⟨r, c.writes + 1⟩ else c.entries.get? a :=
  Table.get?_insert _ _ _ _

theorem Filed.file {c : PriceCache} (h : c.Filed) (f : Feed) (r : Record) : (c.file f r).Filed where
  feeds_sorted := (h.addFeed f).feeds_sorted
  entries_sorted := h.entries_sorted.insert _ _
  feeds_address := (h.addFeed f).feeds_address
  entries_tracked := by
    intro a e he
    rw [get?_file] at he
    rw [PriceCache.file, h.get?_addFeed]
    split
    · exact ⟨f, rfl⟩
    · next ha =>
      rw [if_neg ha] at he
      exact h.entries_tracked he

/-! ### A pass -/

/-- What a pass over `c` has done so far: the records of the feeds it names are gone, and nothing
else is. -/
structure Pass.Follows (c : PriceCache) (p : Pass) : Prop where
  /-- the records left are in order -/
  entries_sorted : p.entries.Sorted
  /-- a record is left unless its feed is named -/
  get?_entries : ∀ a, p.entries.get? a =
    if a ∈ p.evicted.map Feed.address then none else c.entries.get? a

theorem Pass.Follows.step {c : PriceCache} (h : c.Filed) {p : Pass} (hp : p.Follows c)
    (cand : Candidate) : (p.step c.cap c.feeds cand).Follows c := by
  rw [Pass.step]
  split
  · exact hp
  · cases he : p.entries.get? cand.address with
    | none => exact hp
    | some e =>
      have hc : c.entries.get? cand.address = some e := by
        rw [hp.get?_entries] at he
        split at he
        · cases he
        · exact he
      -- a candidate that has a record is tracked, so the pass can name its feed
      obtain ⟨f, hf⟩ := h.entries_tracked hc
      have hfa : f.address = cand.address := h.feeds_address hf
      refine ⟨hp.entries_sorted.erase _, fun a => ?_⟩
      simp only [hf, Option.toList_some, List.map_append, List.map_cons, List.map_nil, hfa,
        Table.get?_erase, hp.get?_entries, List.mem_append, List.mem_singleton]
      by_cases ha : cand.address = a
      · simp [ha]
      · simp [ha, Ne.symm ha]

theorem Filed.evict_follows {c : PriceCache} (h : c.Filed) (ordered : List Candidate) :
    (c.evict ordered).Follows c := by
  suffices hrun : ∀ p : Pass, p.Follows c →
      (ordered.foldl (Pass.step c.cap c.feeds) p).Follows c from
    hrun _ ⟨h.entries_sorted, fun a => by simp⟩
  induction ordered with
  | nil => exact fun p hp => hp
  | cons cand ordered ih => exact fun p hp => ih _ (hp.step h cand)

/-- A pass takes nothing but records, and names the feeds they were of. -/
theorem Filed.get?_pruneSparing {c : PriceCache} (h : c.Filed) (spare : Option Address)
    (f : Feed) :
    (c.pruneSparing spare).1.entries.get? f.address =
      if f ∈ (c.pruneSparing spare).2.evicted then none else c.entries.get? f.address := by
  rw [pruneSparing]
  split
  · simp [weighed]
  · simp only [(h.evict_follows _).get?_entries, List.mem_map, Feed.address_inj, exists_eq_right]

@[simp] theorem feeds_pruneSparing (c : PriceCache) (spare : Option Address) :
    (c.pruneSparing spare).1.feeds = c.feeds := by
  rw [pruneSparing]
  split <;> rfl

@[simp] theorem writes_pruneSparing (c : PriceCache) (spare : Option Address) :
    (c.pruneSparing spare).1.writes = c.writes := by
  rw [pruneSparing]
  split <;> rfl

@[simp] theorem updates_pruneSparing (c : PriceCache) (spare : Option Address) :
    (c.pruneSparing spare).1.updates = c.updates := by
  rw [pruneSparing]
  split <;> rfl

@[simp] theorem cap_pruneSparing (c : PriceCache) (spare : Option Address) :
    (c.pruneSparing spare).1.cap = c.cap := by
  rw [pruneSparing]
  split <;> rfl

theorem Filed.pruneSparing {c : PriceCache} (h : c.Filed) (spare : Option Address) :
    (c.pruneSparing spare).1.Filed where
  feeds_sorted := by rw [feeds_pruneSparing]; exact h.feeds_sorted
  entries_sorted := by
    rw [PriceCache.pruneSparing]
    split
    · exact h.entries_sorted
    · exact (h.evict_follows _).entries_sorted
  feeds_address := by
    intro a f hf
    rw [feeds_pruneSparing] at hf
    exact h.feeds_address hf
  entries_tracked := by
    intro a e he
    rw [feeds_pruneSparing]
    rw [PriceCache.pruneSparing] at he
    split at he
    · exact h.entries_tracked he
    · rw [(h.evict_follows _).get?_entries] at he
      split at he
      · cases he
      · exact h.entries_tracked he

/-! ### Reading -/

variable {c : PriceCache} {f : Feed}

theorem get_eq_ok_iff {r : Record} :
    c.get f = .ok r ↔ ∃ e, c.entries.get? f.address = some e ∧ e.record = r := by
  rw [get]
  cases c.entries.get? f.address <;> simp

theorem get_eq_notFound (h : c.entries.get? f.address = none) :
    c.get f = .error (.notFound f) := by
  rw [get, h]

end PriceCache

end PriceRelay
