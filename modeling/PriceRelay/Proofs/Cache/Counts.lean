import PriceRelay.Proofs.Cache.Ledger
import PriceRelay.Proofs.Cache.Recency
/-!
# What the counts of a cache tell

A cache counts its writes and the records it pushed out. Neither is read off the tables: the numbers
of the records and both counts are kept beside them, and a pass counts the feeds it can name rather
than the records it takes. They agree all the same, after any calls, whatever the policy makes of
its candidates, be it another thing at each call.

* `PriceCache.after` is the cache that a history of calls leads to,
* `PriceCache.removed` are the records that a call takes out, `PriceCache.additions` counts those it
  adds, `PriceCache.tally` sums a count over a history,
* `PriceCache.Numbered` is the invariant of the numbers,
* `PriceCache.Balanced` is what the counts tell, `PriceCache.after_balanced` that they do,
* `PriceCache.counters_le_length` says how far the counters come.
-/

namespace PriceRelay

namespace PriceCache

/-- The cache as it is while a policy says which records go first. -/
def under (c : PriceCache) (policy : EvictionPolicy) : PriceCache := { c with policy := policy }

/-- The cache that a history of calls leads to, each of them made under a policy of its own. -/
def after (c : PriceCache) (history : List (EvictionPolicy × CacheCall)) : PriceCache :=
  history.foldl (fun c p => ((c.under p.1).make p.2).1) c

/-! ### Counting -/

/-- The sum of what the calls of a history count for, given the caches that they are made to. -/
def tally (count : PriceCache → CacheCall → Nat) (c : PriceCache) :
    List (EvictionPolicy × CacheCall) → Nat
  | [] => 0
  | (policy, call) :: history =>
    count (c.under policy) call + tally count ((c.under policy).make call).1 history

/-- A write counts for one. -/
def filings (_ : PriceCache) : CacheCall → Nat
  | .put _ _ => 1
  | _ => 0

/-- A write of a feed that has no record counts for one. -/
def additions (c : PriceCache) : CacheCall → Nat
  | .put f _ =>
    match c.get f with
    | .ok _ => 0
    | .error _ => 1
  | _ => 0

/-- The cache as it is when a call comes to make room. -/
def filedBy (c : PriceCache) : CacheCall → PriceCache
  | .put f r => c.file f r
  | _ => c

/-- Where a call takes records out: there is one when it comes to make room, and none after it. -/
def removed (c : PriceCache) (call : CacheCall) : List Address :=
  (c.filedBy call).entries.keys.filter fun a => a ∉ (c.make call).1.entries.keys

/-- A record that is taken out counts for one. -/
def removals (c : PriceCache) (call : CacheCall) : Nat := (c.removed call).length

/-- What the tables and the counts of a cache tell of the history that led to it from `start`. -/
structure Balanced (start : PriceCache) (history : List (EvictionPolicy × CacheCall))
    (c : PriceCache) : Prop where
  /-- a feed is listed once, under its own network and key -/
  feeds_filed : c.feeds.keys.Nodup ∧
    ∀ a f, (a, f) ∈ c.feeds.toList → f.network = a.network ∧ f.key = a.key
  /-- a record lies once under an address, and the feed of this network and key is listed there -/
  records_filed : c.entries.keys.Nodup ∧
    ∀ a e, (a, e) ∈ c.entries.toList →
      ∃ f, (a, f) ∈ c.feeds.toList ∧ f.network = a.network ∧ f.key = a.key
  /-- no two records have the same number, on whatever networks they are -/
  written_nodup : (c.entries.values.map Entry.written).Nodup
  /-- no number is above the count of the writes -/
  written_le : ∀ e ∈ c.entries.values, e.written ≤ tally filings start history
  /-- the number of the latest write is the count of the writes -/
  writes : c.writes = tally filings start history
  /-- the updates are the writes -/
  updates : c.stats.updates = tally filings start history
  /-- the evictions are the records that were taken out -/
  evictions : c.stats.evictions = tally removals start history
  /-- the records held and the evictions are the writes of feeds that had no record -/
  records : c.stats.records + c.stats.evictions = tally additions start history

variable {c : PriceCache}

theorem Filed.under (h : c.Filed) (policy : EvictionPolicy) : (c.under policy).Filed where
  feeds_sorted := h.feeds_sorted
  entries_sorted := h.entries_sorted
  feeds_address := h.feeds_address
  entries_tracked := h.entries_tracked

theorem Filed.after (h : c.Filed) (history : List (EvictionPolicy × CacheCall)) :
    (c.after history).Filed := by
  induction history generalizing c with
  | nil => exact h
  | cons p history ih => exact ih ((h.under p.1).make p.2)

theorem Filed.filedBy (h : c.Filed) (call : CacheCall) : (c.filedBy call).Filed := by
  cases call with
  | put f r => exact h.file f r
  | _ => exact h

/-! ### What a call takes out -/

/-- A pass counts as many feeds as it takes records. -/
theorem Filed.size_step (h : c.Filed) {p : Pass} (hp : p.Follows c) (cand : Candidate) :
    (p.step c.cap c.feeds cand).entries.size + (p.step c.cap c.feeds cand).evicted.length =
      p.entries.size + p.evicted.length := by
  rw [Pass.step]
  split
  · rfl
  · split
    · rfl
    · next e he =>
      have hc : c.entries.get? cand.address = some e := by
        rw [hp.get?_entries] at he
        split at he
        · cases he
        · exact he
      -- the record is of a listed feed, which is why the pass can count it
      obtain ⟨f, hf⟩ := h.entries_tracked hc
      have hsize := hp.entries_sorted.size_erase cand.address
      have hcontains : p.entries.contains cand.address = true := by
        rw [Table.contains, he]
        rfl
      rw [if_pos hcontains] at hsize
      simp only [hf, Option.toList_some, List.length_append, List.length_singleton]
      omega

theorem Filed.size_evict (h : c.Filed) (ordered : List Candidate) :
    (c.evict ordered).entries.size + (c.evict ordered).evicted.length = c.entries.size := by
  suffices hrun : ∀ p : Pass, p.Follows c →
      (ordered.foldl (Pass.step c.cap c.feeds) p).entries.size +
        (ordered.foldl (Pass.step c.cap c.feeds) p).evicted.length =
          p.entries.size + p.evicted.length from
    hrun _ ⟨h.entries_sorted, fun a => by simp⟩
  induction ordered with
  | nil => exact fun p _ => rfl
  | cons cand ordered ih =>
    intro p hp
    exact (ih _ (hp.step h cand)).trans (h.size_step hp cand)

theorem Filed.size_pruneSparing (h : c.Filed) (spare : Option Address) :
    (c.pruneSparing spare).1.entries.size + (c.pruneSparing spare).2.evicted.length =
      c.entries.size := by
  rw [PriceCache.pruneSparing]
  split
  · rfl
  · exact h.size_evict _

theorem evictions_pruneSparing (c : PriceCache) (spare : Option Address) :
    (c.pruneSparing spare).1.evictions =
      c.evictions + (c.pruneSparing spare).2.evicted.length := by
  rw [pruneSparing]
  split <;> rfl

@[simp] theorem evictions_addFeed (c : PriceCache) (f : Feed) :
    (c.addFeed f).evictions = c.evictions := by
  rw [addFeed]
  split <;> rfl

/-- A call tells as many feeds as there are records less. -/
theorem Filed.size_make (h : c.Filed) (call : CacheCall) :
    (c.make call).1.entries.size + (c.make call).2.length = (c.filedBy call).entries.size := by
  cases call with
  | addFeed f => exact congrArg Table.size (entries_addFeed c f)
  | put f r => exact (h.file f r).size_pruneSparing _
  | prune => exact h.size_pruneSparing none
  | register k g => rfl
  | query q => cases q <;> rfl

theorem evictions_make (c : PriceCache) (call : CacheCall) :
    (c.make call).1.evictions = c.evictions + (c.make call).2.length := by
  cases call with
  | addFeed f => exact evictions_addFeed c f
  | put f r =>
    have hfile : (c.file f r).evictions = c.evictions := evictions_addFeed c f
    rw [make, put, evictions_pruneSparing, hfile]
  | prune => exact evictions_pruneSparing c none
  | register k g => rfl
  | query q => cases q <;> rfl

theorem writes_make (c : PriceCache) (call : CacheCall) :
    (c.make call).1.writes = c.writes + c.filings call := by
  cases call with
  | addFeed f => exact writes_addFeed c f
  | put f r => exact writes_pruneSparing _ _
  | prune => exact writes_pruneSparing c none
  | register k g => rfl
  | query q => cases q <;> rfl

theorem updates_make (c : PriceCache) (call : CacheCall) :
    (c.make call).1.updates = c.updates + c.filings call := by
  cases call with
  | addFeed f => exact updates_addFeed c f
  | put f r =>
    have hfile : (c.file f r).updates = c.updates + 1 := rfl
    rw [make, put, updates_pruneSparing, hfile, filings]
  | prune => exact updates_pruneSparing c none
  | register k g => rfl
  | query q => cases q <;> rfl

theorem writes_filedBy (c : PriceCache) (call : CacheCall) :
    (c.filedBy call).writes = (c.make call).1.writes := by
  rw [writes_make]
  cases call <;> rfl

/-- What is there after a call was there when it came to make room. -/
theorem get?_of_make {call : CacheCall} {a : Address} {e : Entry}
    (he : (c.make call).1.entries.get? a = some e) : (c.filedBy call).entries.get? a = some e := by
  cases call with
  | addFeed f =>
    rw [make, entries_addFeed] at he
    exact he
  | put f r => exact get?_of_pruneSparing he
  | prune => exact get?_of_pruneSparing he
  | register k g => exact he
  | query q => cases q <;> exact he

/-- **A call takes out as many records as it tells.** -/
theorem Filed.removals_eq (h : c.Filed) (call : CacheCall) :
    c.removals call = (c.make call).2.length := by
  have hbefore := (h.filedBy call).entries_sorted
  have hafter := (h.make call).entries_sorted
  have hsub : (c.make call).1.entries.keys ⊆ (c.filedBy call).entries.keys := fun a ha => by
    obtain ⟨e, he⟩ := hafter.mem_keys.mp ha
    exact hbefore.mem_keys.mpr ⟨e, get?_of_make he⟩
  have hleft := length_filter_notMem hbefore.nodup_keys hafter.nodup_keys hsub
  have hsize := h.size_make call
  rw [Table.length_keys, Table.length_keys] at hleft
  rw [removals, removed]
  omega

/-! ### What a call adds -/

theorem Filed.size_filedBy (h : c.Filed) (call : CacheCall) :
    (c.filedBy call).entries.size = c.entries.size + c.additions call := by
  cases call with
  | put f r =>
    have hinsert : (c.file f r).entries.size = (c.entries.erase f.address).size + 1 :=
      h.entries_sorted.size_insert _ _
    have herase := h.entries_sorted.size_erase f.address
    rw [Table.contains] at herase
    rw [PriceCache.filedBy, additions, get, hinsert]
    cases he : c.entries.get? f.address with
    | none =>
      simp only [he, Option.isSome_none, Bool.false_eq_true, if_false] at herase ⊢
      omega
    | some e =>
      simp only [he, Option.isSome_some, if_true] at herase ⊢
      omega
  | _ => rfl

/-- **What a call adds is there after it, or was taken out by it.** -/
theorem Filed.size_add_removals (h : c.Filed) (call : CacheCall) :
    (c.make call).1.entries.size + c.removals call = c.entries.size + c.additions call := by
  rw [h.removals_eq, h.size_make, h.size_filedBy]

/-! ### The numbers of the records -/

/-- The records have numbers of their own, none of which is yet to come. -/
structure Numbered (c : PriceCache) : Prop where
  /-- no number was used that is yet to come -/
  written_le : ∀ {a e}, c.entries.get? a = some e → e.written ≤ c.writes
  /-- a number tells where its record lies -/
  written_inj : ∀ {a b e e'}, c.entries.get? a = some e → c.entries.get? b = some e' →
    e.written = e'.written → a = b

theorem numbered_fresh (sizes : SizeRegistry) (cap : UInt64) (policy : EvictionPolicy) :
    (fresh sizes cap policy).Numbered where
  written_le h := by cases h
  written_inj h := by cases h

theorem Numbered.under (hn : c.Numbered) (policy : EvictionPolicy) : (c.under policy).Numbered where
  written_le := hn.written_le
  written_inj := hn.written_inj

theorem Numbered.file (hn : c.Numbered) (f : Feed) (r : Record) : (c.file f r).Numbered where
  written_le {a e} he := by
    rw [get?_file] at he
    change e.written ≤ c.writes + 1
    split at he
    · exact Nat.le_of_eq (congrArg Entry.written (Option.some.inj he)).symm
    · exact Nat.le_succ_of_le (hn.written_le he)
  written_inj {a b e e'} ha hb hsame := by
    rw [get?_file] at ha hb
    -- the new number is above all others
    split at ha <;> split at hb
    · next h h' => exact h.symm.trans h'
    · have hle := hn.written_le hb
      rw [← Option.some.inj ha] at hsame
      change c.writes + 1 = e'.written at hsame
      omega
    · have hle := hn.written_le ha
      rw [← Option.some.inj hb] at hsame
      change e.written = c.writes + 1 at hsame
      omega
    · exact hn.written_inj ha hb hsame

theorem Numbered.make (hn : c.Numbered) (call : CacheCall) : (c.make call).1.Numbered := by
  have hfiled : (c.filedBy call).Numbered := by
    cases call with
    | put f r => exact hn.file f r
    | _ => exact hn
  refine ⟨fun he => ?_, fun ha hb => hfiled.written_inj (get?_of_make ha) (get?_of_make hb)⟩
  rw [← writes_filedBy]
  exact hfiled.written_le (get?_of_make he)

theorem Numbered.after (hn : c.Numbered) (history : List (EvictionPolicy × CacheCall)) :
    (c.after history).Numbered := by
  induction history generalizing c with
  | nil => exact hn
  | cons p history ih => exact ih ((hn.under p.1).make p.2)

theorem Numbered.written_le_of_mem (hn : c.Numbered) (h : c.Filed) {e : Entry}
    (he : e ∈ c.entries.values) : e.written ≤ c.writes := by
  obtain ⟨⟨a, e⟩, hp, rfl⟩ := List.mem_map.mp he
  exact hn.written_le (h.entries_sorted.mem_toList.mp hp)

/-! ### Histories -/

/-- A counter to which every call adds what it counts for has added up the whole history. -/
theorem Filed.counter_after {count : PriceCache → CacheCall → Nat} (counter : PriceCache → Nat)
    (hunder : ∀ c policy, counter (c.under policy) = counter c)
    (hmake : ∀ {c}, c.Filed → ∀ call, counter (c.make call).1 = counter c + count c call)
    (h : c.Filed) (history : List (EvictionPolicy × CacheCall)) :
    counter (c.after history) = counter c + tally count c history := by
  induction history generalizing c with
  | nil => rfl
  | cons p history ih =>
    have hrest := ih ((h.under p.1).make p.2)
    rw [hmake (h.under p.1), hunder] at hrest
    rw [tally, ← Nat.add_assoc]
    exact hrest

theorem Filed.writes_after (h : c.Filed) (history : List (EvictionPolicy × CacheCall)) :
    (c.after history).writes = c.writes + tally filings c history :=
  h.counter_after writes (fun _ _ => rfl) (fun _ call => writes_make _ call) history

theorem Filed.updates_after (h : c.Filed) (history : List (EvictionPolicy × CacheCall)) :
    (c.after history).updates = c.updates + tally filings c history :=
  h.counter_after updates (fun _ _ => rfl) (fun _ call => updates_make _ call) history

theorem Filed.evictions_after (h : c.Filed) (history : List (EvictionPolicy × CacheCall)) :
    (c.after history).evictions = c.evictions + tally removals c history := by
  refine h.counter_after evictions (fun _ _ => rfl) (fun h call => ?_) history
  rw [evictions_make, h.removals_eq]

/-- **No record is lost or counted twice.** -/
theorem Filed.size_after (h : c.Filed) (history : List (EvictionPolicy × CacheCall)) :
    (c.after history).entries.size + tally removals c history =
      c.entries.size + tally additions c history := by
  induction history generalizing c with
  | nil => rfl
  | cons p history ih =>
    have hmake : ((c.under p.1).make p.2).1.entries.size + (c.under p.1).removals p.2 =
        c.entries.size + (c.under p.1).additions p.2 :=
      (h.under p.1).size_add_removals p.2
    have hrest : (c.after (p :: history)).entries.size +
        tally removals ((c.under p.1).make p.2).1 history =
          ((c.under p.1).make p.2).1.entries.size +
            tally additions ((c.under p.1).make p.2).1 history :=
      ih ((h.under p.1).make p.2)
    rw [tally, tally]
    omega

/-- What a fresh cache counts: its writes, and the records that were taken out. -/
theorem counters_after (sizes : SizeRegistry) (cap : UInt64) (policy : EvictionPolicy)
    (history : List (EvictionPolicy × CacheCall)) :
    let start := fresh sizes cap policy
    (start.after history).writes = tally filings start history ∧
      (start.after history).updates = tally filings start history ∧
      (start.after history).evictions = tally removals start history ∧
      (start.after history).entries.size + (start.after history).evictions =
        tally additions start history := by
  intro start
  have hfresh : start.Filed := filed_fresh sizes cap policy
  have hevictions : (start.after history).evictions = tally removals start history :=
    (hfresh.evictions_after history).trans (Nat.zero_add _)
  refine ⟨(hfresh.writes_after history).trans (Nat.zero_add _),
    (hfresh.updates_after history).trans (Nat.zero_add _), hevictions, ?_⟩
  rw [hevictions]
  exact (hfresh.size_after history).trans (Nat.zero_add _)

/-- **The counts of a cache are right after any calls to a fresh one**: its records lie where their
feeds are listed, no two with the same number; it has counted the writes and the records taken out;
and what it holds is what was added and not taken out. -/
theorem after_balanced (sizes : SizeRegistry) (cap : UInt64) (policy : EvictionPolicy)
    (history : List (EvictionPolicy × CacheCall)) :
    Balanced (fresh sizes cap policy) history ((fresh sizes cap policy).after history) := by
  have hfiled := (filed_fresh sizes cap policy).after history
  have hnumbered := (numbered_fresh sizes cap policy).after history
  obtain ⟨hwrites, hupdates, hevictions, hsize⟩ := counters_after sizes cap policy history
  have haddress : ∀ a f, (a, f) ∈ ((fresh sizes cap policy).after history).feeds.toList →
      f.network = a.network ∧ f.key = a.key := fun a f hmem => by
    have hf : f.address = a := hfiled.feeds_address (hfiled.feeds_sorted.mem_toList.mp hmem)
    exact ⟨congrArg Address.network hf, congrArg Address.key hf⟩
  refine ⟨⟨hfiled.feeds_sorted.nodup_keys, haddress⟩,
    ⟨hfiled.entries_sorted.nodup_keys, fun a e hmem => ?_⟩, ?_,
    fun e hmem => hwrites ▸ hnumbered.written_le_of_mem hfiled hmem, hwrites, hupdates, hevictions,
    hsize⟩
  · obtain ⟨f, hf⟩ := hfiled.entries_tracked (hfiled.entries_sorted.mem_toList.mp hmem)
    have hlisted := hfiled.feeds_sorted.mem_toList.mpr hf
    exact ⟨f, hlisted, haddress a f hlisted⟩
  · rw [Table.values, List.map_map]
    apply List.pairwise_map.mpr
    refine List.Pairwise.imp_of_mem ?_ hfiled.entries_sorted
    intro p q hp hq hlt hsame
    have heq : p.1 = q.1 := hnumbered.written_inj (hfiled.entries_sorted.mem_toList.mp hp)
      (hfiled.entries_sorted.mem_toList.mp hq) hsame
    rw [heq] at hlt
    exact Std.Irrefl.irrefl _ hlt

/-! ### How far the counters come -/

theorem tally_le_length {count : PriceCache → CacheCall → Nat} (hcount : ∀ c call, count c call ≤ 1)
    (c : PriceCache) (history : List (EvictionPolicy × CacheCall)) :
    tally count c history ≤ history.length := by
  induction history generalizing c with
  | nil => exact Nat.le_refl 0
  | cons p history ih =>
    have hfirst := hcount (c.under p.1) p.2
    have hrest := ih ((c.under p.1).make p.2).1
    rw [tally, List.length_cons]
    omega

theorem filings_le_one (c : PriceCache) (call : CacheCall) : c.filings call ≤ 1 := by
  cases call <;> simp [filings]

theorem additions_le_one (c : PriceCache) (call : CacheCall) : c.additions call ≤ 1 := by
  cases call with
  | put f r =>
    rw [additions]
    split <;> simp
  | _ => exact Nat.zero_le 1

/-- **No counter comes further than there were calls**, so 64 bits are enough for each of them as
long as there were fewer than `2 ^ 64`. -/
theorem counters_le_length (sizes : SizeRegistry) (cap : UInt64) (policy : EvictionPolicy)
    (history : List (EvictionPolicy × CacheCall)) :
    let c := (fresh sizes cap policy).after history
    c.writes ≤ history.length ∧ c.updates ≤ history.length ∧ c.evictions ≤ history.length ∧
      ∀ e ∈ c.entries.values, e.written ≤ history.length := by
  intro c
  have hfilings := tally_le_length filings_le_one (fresh sizes cap policy) history
  have hadditions := tally_le_length additions_le_one (fresh sizes cap policy) history
  -- what was taken out had been added before
  obtain ⟨hwrites, hupdates, -, hsize⟩ := counters_after sizes cap policy history
  have hwritten : c.writes ≤ history.length := hwrites ▸ hfilings
  have hevictions : c.evictions ≤ history.length :=
    Nat.le_trans (Nat.le_of_add_left_le (Nat.le_of_eq hsize)) hadditions
  have hnumbered := (numbered_fresh sizes cap policy).after history
  have hfiled := (filed_fresh sizes cap policy).after history
  refine ⟨hwritten, hupdates ▸ hfilings, hevictions, fun e he => ?_⟩
  exact Nat.le_trans (hnumbered.written_le_of_mem hfiled he) hwritten

end PriceCache

end PriceRelay
