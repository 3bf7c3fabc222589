import Mathlib.Data.List.Induction
import PriceRelay.Proofs.Cache.Calls
/-!
# The cache is a map of feeds

Seen from outside, a cache is a map from feeds, that is from a network, a source and an identifier,
to records. The map is what the notes of the calls add up to: a written record is there until
another one of the same feed is written or a pass pushes it out. Keys are texts made of a source and
an identifier; no two feeds of a network share one, which is why nothing else can answer for a feed.

* `CacheNote.held` is the record of a feed after some notes,
* `PriceCache.Mirrors` says that a cache answers for records as this map does,
* `PriceCache.Lists` says which feeds it lists,
* `PriceCache.run_observed` shows both for every run from a fresh cache.
-/

namespace PriceRelay

namespace CacheNote

/-- What a feed holds after a note, of what it held before. -/
def after (f : Feed) (held : Option Record) : CacheNote → Option Record
  | written g r => if g = f then some r else held
  | evicted g => if g = f then none else held

/-- What a feed holds after some notes: the record written last, unless it was pushed out since. -/
def held (notes : List CacheNote) (f : Feed) : Option Record := notes.foldl (after f) none

theorem held_append (notes more : List CacheNote) (f : Feed) :
    held (notes ++ more) f = more.foldl (after f) (held notes f) :=
  List.foldl_append

/-- The feed a note is about. -/
def feed : CacheNote → Feed
  | written f _ => f
  | evicted f => f

theorem after_of_feed_ne {f : Feed} {note : CacheNote} (h : note.feed ≠ f) (r : Option Record) :
    after f r note = r := by
  cases note with
  | written g _ => exact if_neg h
  | evicted g => exact if_neg h

/-- **What it means to hold a record**: a note says it was written, and no later note is about the
feed. -/
theorem held_eq_some_iff {notes : List CacheNote} {f : Feed} {r : Record} :
    held notes f = some r ↔
      ∃ before later, notes = before ++ written f r :: later ∧ ∀ note ∈ later, note.feed ≠ f := by
  constructor
  · intro h
    induction notes using List.reverseRecOn with
    | nil => cases h
    | append_singleton notes note ih =>
      rw [held_append, List.foldl_cons, List.foldl_nil] at h
      by_cases hf : note.feed = f
      · -- the last note about the feed decides, and only a write leaves a record
        cases note with
        | written g s =>
          obtain rfl : g = f := hf
          rw [after, if_pos rfl] at h
          obtain rfl := Option.some.inj h
          exact ⟨notes, [], rfl, by simp⟩
        | evicted g =>
          obtain rfl : g = f := hf
          rw [after, if_pos rfl] at h
          cases h
      · rw [after_of_feed_ne hf] at h
        obtain ⟨before, later, rfl, hlater⟩ := ih h
        refine ⟨before, later ++ [note], by simp, fun other hother => ?_⟩
        rcases List.mem_append.mp hother with hother | hother
        · exact hlater other hother
        · rw [List.mem_singleton.mp hother]
          exact hf
  · rintro ⟨before, later, rfl, hlater⟩
    rw [held_append, List.foldl_cons, after, if_pos rfl]
    induction later with
    | nil => rfl
    | cons note later ih =>
      rw [List.foldl_cons, after_of_feed_ne (hlater note (List.mem_cons_self ..))]
      exact ih fun other hother => hlater other (List.mem_cons_of_mem _ hother)

/-- A pass clears what it names, and nothing else. -/
theorem foldl_after_evicted (f : Feed) (gone : List Feed) (h : Option Record) :
    (gone.map evicted).foldl (after f) h = if f ∈ gone then none else h := by
  induction gone generalizing h with
  | nil => rfl
  | cons g gone ih =>
    rw [List.map_cons, List.foldl_cons, ih, after]
    by_cases hm : f ∈ gone
    · rw [if_pos hm, if_pos (List.mem_cons_of_mem _ hm)]
    · rw [if_neg hm]
      by_cases hg : g = f
      · rw [if_pos hg, if_pos (by rw [hg]; exact List.mem_cons_self ..)]
      · rw [if_neg hg, if_neg (by simp [hm, Ne.symm hg])]

end CacheNote

namespace PriceCache

open CacheNote (held)

/-- The record filed for a feed. -/
def filed? (c : PriceCache) (f : Feed) : Option Record :=
  (c.entries.get? f.address).map Entry.record

/-- The cache answers for records as the map that the notes add up to. -/
structure Mirrors (c : PriceCache) (notes : List CacheNote) : Prop where
  /-- a feed has the record it holds, and else a fault that names it -/
  get : ∀ f, c.get f = (held notes f).elim (.error (.notFound f)) .ok
  /-- the records of a network are those its feeds hold -/
  getAll : ∀ n k r, (k, r) ∈ c.getAll n ↔
    ∃ f : Feed, f.network = n ∧ f.key = k ∧ held notes f = some r
  /-- each of them is there once -/
  getAll_nodup : ∀ n, ((c.getAll n).map Prod.fst).Nodup
  /-- the records of a source are those its feeds hold, by their own identifiers -/
  getAllBySource : ∀ n s i r, (i, r) ∈ c.getAllBySource n s ↔ held notes ⟨n, s, i⟩ = some r
  /-- each of them is there once -/
  getAllBySource_nodup : ∀ n s, ((c.getAllBySource n s).map Prod.fst).Nodup

/-- The cache lists the feeds that the calls named. -/
structure Lists (c : PriceCache) (calls : List CacheCall) : Prop where
  /-- every feed that was named, and no other -/
  mem_tracked : ∀ f, f ∈ c.tracked ↔ ∃ call ∈ calls, call.Names f
  /-- each of them once -/
  nodup : c.tracked.Nodup
  /-- in the order of their networks, on one network in that of their keys -/
  ordered : c.tracked.Pairwise fun f g =>
    f.network < g.network ∨ (f.network = g.network ∧ f.key < g.key)
  /-- those of one network are listed alike -/
  trackedFeeds : ∀ n, c.trackedFeeds n = c.tracked.filter fun f => f.network = n

/-! ### Records -/

variable {c : PriceCache}

theorem get_eq_elim (c : PriceCache) (f : Feed) :
    c.get f = (c.filed? f).elim (.error (.notFound f)) .ok := by
  rw [get, filed?]
  cases c.entries.get? f.address <;> rfl

theorem Filed.mem_getAll (h : c.Filed) {n : NetworkId} {k : String} {r : Record} :
    (k, r) ∈ c.getAll n ↔ ∃ e, c.entries.get? ⟨n, k⟩ = some e ∧ e.record = r := by
  rw [getAll, List.mem_map]
  constructor
  · rintro ⟨⟨a, e⟩, hp, heq⟩
    obtain ⟨hmem, hn⟩ := List.mem_filter.mp hp
    obtain ⟨rfl, rfl⟩ := Prod.mk.inj heq
    obtain rfl := of_decide_eq_true hn
    exact ⟨e, h.entries_sorted.mem_toList.mp hmem, rfl⟩
  · rintro ⟨e, he, rfl⟩
    refine ⟨(⟨n, k⟩, e), List.mem_filter.mpr ⟨h.entries_sorted.mem_toList.mpr he, ?_⟩, rfl⟩
    exact decide_eq_true rfl

/-- A record of a network is filed for the one feed of its key. -/
theorem Filed.mem_getAll_iff_filed? (h : c.Filed) {n : NetworkId} {k : String} {r : Record} :
    (k, r) ∈ c.getAll n ↔ ∃ f : Feed, f.network = n ∧ f.key = k ∧ c.filed? f = some r := by
  rw [h.mem_getAll]
  constructor
  · rintro ⟨e, he, rfl⟩
    obtain ⟨f, hf⟩ := h.entries_tracked he
    have hfa : f.address = ⟨n, k⟩ := h.feeds_address hf
    obtain ⟨hn, hk⟩ := Address.mk.inj hfa
    exact ⟨f, hn, hk, by rw [filed?, hfa, he]; rfl⟩
  · rintro ⟨f, rfl, rfl, hf⟩
    obtain ⟨e, he, rfl⟩ := Option.map_eq_some_iff.mp hf
    exact ⟨e, he, rfl⟩

theorem Filed.nodup_getAll (h : c.Filed) (n : NetworkId) : ((c.getAll n).map Prod.fst).Nodup := by
  have hsorted : (c.entries.toList.filter fun p => p.1.network = n).Pairwise
      fun p q => p.1 < q.1 := List.Pairwise.filter _ h.entries_sorted
  rw [getAll, List.map_map]
  apply List.pairwise_map.mpr
  refine List.Pairwise.imp_of_mem ?_ hsorted
  -- on one network two addresses of one key would be one address
  intro p q hp hq hlt heq
  have hpn : p.1.network = n := of_decide_eq_true (List.mem_filter.mp hp).2
  have hqn : q.1.network = n := of_decide_eq_true (List.mem_filter.mp hq).2
  have hsame : p.1 = q.1 := Address.mk.injEq .. ▸ ⟨hpn.trans hqn.symm, heq⟩
  rw [hsame] at hlt
  exact Std.Irrefl.irrefl _ hlt

theorem mem_getAllBySource {n : NetworkId} {s : Source} {i : String} {r : Record} :
    (i, r) ∈ c.getAllBySource n s ↔ ∃ k, (k, r) ∈ c.getAll n ∧ s.identifierOf? k = some i := by
  rw [getAllBySource, List.mem_filterMap]
  constructor
  · rintro ⟨⟨k, r'⟩, hmem, hmap⟩
    obtain ⟨j, hj, heq⟩ := Option.map_eq_some_iff.mp hmap
    obtain ⟨rfl, rfl⟩ := Prod.mk.inj heq
    exact ⟨k, hmem, hj⟩
  · rintro ⟨k, hmem, hi⟩
    exact ⟨(k, r), hmem, by rw [hi]; rfl⟩

/-- The records of a source are those of its own feeds: no other source has a key that begins as
its keys do. -/
theorem Filed.mem_getAllBySource_iff_filed? (h : c.Filed) {n : NetworkId} {s : Source} {i : String}
    {r : Record} : (i, r) ∈ c.getAllBySource n s ↔ c.filed? ⟨n, s, i⟩ = some r := by
  rw [mem_getAllBySource]
  constructor
  · rintro ⟨k, hmem, hi⟩
    obtain ⟨f, rfl, rfl, hf⟩ := h.mem_getAll_iff_filed?.mp hmem
    obtain ⟨rfl, rfl⟩ := Source.identifierOf?_keyOf.mp hi
    exact hf
  · intro hf
    refine ⟨s.keyOf i, h.mem_getAll_iff_filed?.mpr ⟨⟨n, s, i⟩, rfl, rfl, hf⟩, ?_⟩
    exact Source.identifierOf?_keyOf.mpr ⟨rfl, rfl⟩

theorem Filed.nodup_getAllBySource (h : c.Filed) (n : NetworkId) (s : Source) :
    ((c.getAllBySource n s).map Prod.fst).Nodup := by
  have hall := List.pairwise_map.mp (h.nodup_getAll n)
  rw [getAllBySource]
  apply List.pairwise_map.mpr
  refine List.Pairwise.filterMap (R := fun p q => p.1 ≠ q.1) _ ?_ hall
  intro p q hne p' hp q' hq hsame
  -- the identifier and the source give the key back
  apply hne
  obtain ⟨i, hi, rfl⟩ := Option.map_eq_some_iff.mp hp
  obtain ⟨j, hj, rfl⟩ := Option.map_eq_some_iff.mp hq
  obtain rfl : i = j := hsame
  rw [← Source.keyOf_of_identifierOf? hi, ← Source.keyOf_of_identifierOf? hj]

/-! ### The map along a run -/

/-- **A call changes the records as its notes say.** -/
theorem Filed.filed?_make (h : c.Filed) (call : CacheCall) (f : Feed) :
    (c.make call).1.filed? f = (c.notes call).foldl (CacheNote.after f) (c.filed? f) := by
  cases call with
  | addFeed g => rw [filed?, PriceCache.make, entries_addFeed]; rfl
  | put g r =>
    rw [notes, List.foldl_append, CacheNote.foldl_after_evicted, filed?, PriceCache.make, put,
      (h.file g r).get?_pruneSparing, get?_file]
    simp only [Feed.address_inj, List.foldl_cons, List.foldl_nil, CacheNote.after, filed?]
    split
    · rfl
    · split <;> rfl
  | prune =>
    simp only [notes, List.nil_append, CacheNote.foldl_after_evicted]
    rw [filed?, PriceCache.make, prune, h.get?_pruneSparing]
    split <;> rfl
  | register k g => rfl
  | query q => cases q <;> rfl

theorem Filed.filed?_run (h : c.Filed) (calls : List CacheCall) (f : Feed) :
    (c.run calls).filed? f = (c.journal calls).foldl (CacheNote.after f) (c.filed? f) := by
  induction calls generalizing c with
  | nil => rfl
  | cons call calls ih =>
    rw [run_cons, ih (h.make call), h.filed?_make, journal, List.foldl_append]

theorem Filed.mirrors (h : c.Filed) {notes : List CacheNote} (hn : ∀ f, c.filed? f = held notes f) :
    c.Mirrors notes where
  get f := by rw [get_eq_elim, hn]
  getAll n k r := by simp only [h.mem_getAll_iff_filed?, hn]
  getAll_nodup := h.nodup_getAll
  getAllBySource n s i r := by rw [h.mem_getAllBySource_iff_filed?, hn]
  getAllBySource_nodup := h.nodup_getAllBySource

/-! ### Tracked feeds -/

theorem Filed.mem_tracked (h : c.Filed) {f : Feed} :
    f ∈ c.tracked ↔ c.feeds.get? f.address = some f := by
  rw [tracked, Table.values, List.mem_map]
  constructor
  · rintro ⟨⟨a, g⟩, hmem, rfl⟩
    have hg : c.feeds.get? a = some g := h.feeds_sorted.mem_toList.mp hmem
    rw [h.feeds_address hg]
    exact hg
  · intro hf
    exact ⟨(f.address, f), h.feeds_sorted.mem_toList.mpr hf, rfl⟩

/-- The feeds are listed in the order of their addresses. -/
theorem Filed.pairwise_tracked (h : c.Filed) :
    c.tracked.Pairwise fun f g => f.address < g.address := by
  apply List.pairwise_map.mpr
  refine List.Pairwise.imp_of_mem ?_ h.feeds_sorted
  intro p q hp hq hlt
  rw [h.feeds_address (h.feeds_sorted.mem_toList.mp hp),
    h.feeds_address (h.feeds_sorted.mem_toList.mp hq)]
  exact hlt

theorem Filed.nodup_tracked (h : c.Filed) : c.tracked.Nodup := by
  refine h.pairwise_tracked.imp fun hlt heq => ?_
  rw [heq] at hlt
  exact Std.Irrefl.irrefl _ hlt

/-- Two caches that track the same feeds list them alike. -/
theorem Filed.tracked_eq {d : PriceCache} (h : c.Filed) (h' : d.Filed)
    (hmem : ∀ f, f ∈ c.tracked ↔ f ∈ d.tracked) : c.tracked = d.tracked := by
  have hperm : c.tracked.Perm d.tracked :=
    (List.perm_ext_iff_of_nodup h.nodup_tracked h'.nodup_tracked).mpr hmem
  refine hperm.eq_of_pairwise (fun f g _ _ hfg hgf => ?_) h.pairwise_tracked h'.pairwise_tracked
  exact absurd (Trans.trans hfg hgf) (Std.Irrefl.irrefl f.address)

theorem Filed.trackedFeeds_eq_filter (h : c.Filed) (n : NetworkId) :
    c.trackedFeeds n = c.tracked.filter fun f => f.network = n := by
  rw [trackedFeeds, tracked, Table.values, List.filter_map]
  refine congrArg _ (List.filter_congr fun p hp => ?_)
  have hp2 : p.2.address = p.1 := h.feeds_address (h.feeds_sorted.mem_toList.mp hp)
  rw [← hp2]
  rfl

/-- **A call lists the feed it names, and takes none off the list.** -/
theorem Filed.mem_tracked_make (h : c.Filed) (call : CacheCall) (f : Feed) :
    f ∈ (c.make call).1.tracked ↔ f ∈ c.tracked ∨ call.Names f := by
  have hadd (g : Feed) : f ∈ (c.addFeed g).tracked ↔ f ∈ c.tracked ∨ g = f := by
    rw [(h.addFeed g).mem_tracked, h.get?_addFeed, h.mem_tracked]
    by_cases hg : g = f
    · simp [hg]
    · rw [if_neg (mt Feed.address_inj.mp hg)]
      simp [hg]
  cases call with
  | addFeed g => exact hadd g
  | put g r =>
    rw [tracked, PriceCache.make, put, feeds_pruneSparing]
    exact hadd g
  | prune =>
    rw [tracked, PriceCache.make, prune, feeds_pruneSparing]
    exact (or_iff_left id).symm
  | register k g => exact (or_iff_left id).symm
  | query q => cases q <;> exact (or_iff_left id).symm

theorem Filed.mem_tracked_run (h : c.Filed) (calls : List CacheCall) (f : Feed) :
    f ∈ (c.run calls).tracked ↔ f ∈ c.tracked ∨ ∃ call ∈ calls, call.Names f := by
  induction calls generalizing c with
  | nil => simp
  | cons call calls ih =>
    rw [run_cons, ih (h.make call), h.mem_tracked_make, or_assoc, List.exists_mem_cons_iff]

theorem Filed.lists (h : c.Filed) {calls : List CacheCall}
    (hc : ∀ f, f ∈ c.tracked ↔ ∃ call ∈ calls, call.Names f) : c.Lists calls where
  mem_tracked := hc
  nodup := h.nodup_tracked
  ordered := h.pairwise_tracked
  trackedFeeds := h.trackedFeeds_eq_filter

/-! ### Runs -/

/-- A read leaves what is noted later, and every later answer, as they would be without it. -/
theorem run_query (c : PriceCache) (calls : List CacheCall) (q : CacheQuery)
    (more : List CacheCall) :
    c.journal (calls ++ .query q :: more) = c.journal (calls ++ more) ∧
      ∀ q', (c.run (calls ++ .query q :: more)).answer q' = (c.run (calls ++ more)).answer q' := by
  have halike : (c.run calls).Alike ((c.run calls).asked q) := alike_asked _ q
  constructor
  · have hnone : (c.run calls).notes (.query q) = [] := rfl
    rw [journal_append, journal_append, journal, hnone, List.nil_append]
    exact congrArg _ (halike.journal more).symm
  · intro q'
    rw [run_append, run_append, run_cons]
    exact ((halike.run more).answer q').symm

/-- **A cache is a map of feeds**: after any calls to a fresh one, it answers for records as the map
that the notes add up to, lists the feeds that were named so far and goes on to list them, and could
have been spared any read. -/
theorem run_observed (sizes : SizeRegistry) (cap : UInt64) (policy : EvictionPolicy)
    (calls : List CacheCall) :
    ((fresh sizes cap policy).run calls).Mirrors ((fresh sizes cap policy).journal calls) ∧
      ((fresh sizes cap policy).run calls).Lists calls ∧
      ∀ more, ((fresh sizes cap policy).run calls).tracked ⊆
          ((fresh sizes cap policy).run (calls ++ more)).tracked ∧
        ∀ q, (fresh sizes cap policy).journal (calls ++ .query q :: more) =
            (fresh sizes cap policy).journal (calls ++ more) ∧
          ∀ q', ((fresh sizes cap policy).run (calls ++ .query q :: more)).answer q' =
            ((fresh sizes cap policy).run (calls ++ more)).answer q' := by
  have hfresh : (fresh sizes cap policy).Filed := filed_fresh sizes cap policy
  have hrun : ((fresh sizes cap policy).run calls).Filed := hfresh.run calls
  refine ⟨hrun.mirrors fun f => ?_, hrun.lists fun f => ?_, fun more => ⟨?_, fun q => ?_⟩⟩
  · rw [hfresh.filed?_run]
    rfl
  · rw [hfresh.mem_tracked_run]
    simp [fresh, tracked, Table.values, Table.empty]
  · intro f hf
    rw [run_append, hrun.mem_tracked_run]
    exact .inl hf
  · exact run_query _ calls q more

end PriceCache

end PriceRelay
