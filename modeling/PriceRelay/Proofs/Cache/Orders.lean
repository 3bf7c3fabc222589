import PriceRelay.Proofs.Cache.Counts
import PriceRelay.Proofs.Relay.Writes
/-!
# Writes in different orders

As long as nothing is pushed out, a write of one feed leaves alone what is filed for the others. So
it does not matter how the writes of different feeds stand among each other: two caches that were
given the same records of each feed in the same order answer every query alike, but for the moments
at which the records were observed.

* `PriceCache.untimed` leaves these moments out,
* `PriceCache.Agrees` relates caches that hold the same, which no answer tells apart
  (`PriceCache.Agrees.answer`); `PriceCache.AnswersAlike` and, where sizes depend on no moment,
  `PriceCache.Agrees.size_stats` are what follows when the moments are left out,
* `PriceCache.Roomy` says that nothing has to be pushed out, `PriceCache.Fills` what writes do then,
* `PriceCache.Filed.agrees` is the result for writes in two orders.
-/

namespace PriceRelay

/-! ### Leaving moments out -/

/-- The record as if it had been observed at the start of the epoch. -/
def Record.untimed : Record → Record
  | aggregator p => .aggregator { p with observed := .epoch 0 }
  | quoted p => .quoted { p with observed := .epoch 0 }
  | custom p => .custom { p with observed := .epoch 0 }

/-- The write of the record without its moment. -/
def Write.untimed (w : Write) : Write := { w with record := w.record.untimed }

namespace SizeRegistry

variable {s t : SizeRegistry}

/-- No size depends on when a record was observed. -/
def Timeless (s : SizeRegistry) : Prop := ∀ r, s.weigh r.untimed = s.weigh r

/-- The sizes of built-in kinds do not, so it is up to the registered functions. -/
theorem timeless_of_registered
    (h : ∀ k f, (s.resolve k).1 = .registered f → ∀ r, f r.untimed = f r) : s.Timeless := by
  intro r
  have hown : r.untimed.ownSize = r.ownSize := by cases r <;> rfl
  have hkind : r.untimed.kind = r.kind := by cases r <;> rfl
  rw [weigh, weigh, hown, hkind]
  cases hr : (s.resolve r.kind).1 with
  | registered f => simp only [Resolution.apply, h _ f hr]
  | _ => cases r <;> rfl

theorem Alike.timeless (h : s.Alike t) (hs : s.Timeless) : t.Timeless := fun r => by
  rw [← h.weigh, ← h.weigh, hs]

end SizeRegistry

namespace PriceCache

variable {c d : PriceCache}

/-- The cache as if its records had been observed at the start of the epoch. -/
def untimed (c : PriceCache) : PriceCache :=
  { c with entries := c.entries.map fun e => { e with record := e.record.untimed } }

theorem get_untimed (c : PriceCache) (f : Feed) :
    c.untimed.get f = (c.get f).map Record.untimed := by
  rw [get, get, untimed, Table.get?_map]
  cases c.entries.get? f.address <;> rfl

theorem getAll_untimed (c : PriceCache) (n : NetworkId) :
    c.untimed.getAll n = (c.getAll n).map fun p => (p.1, p.2.untimed) := by
  simp only [getAll, untimed, Table.map, List.filter_map, List.map_map]
  rfl

theorem getAllBySource_untimed (c : PriceCache) (n : NetworkId) (s : Source) :
    c.untimed.getAllBySource n s = (c.getAllBySource n s).map fun p => (p.1, p.2.untimed) := by
  rw [getAllBySource, getAllBySource, getAll_untimed, List.filterMap_map, List.map_filterMap]
  congr 1
  funext p
  simp [Option.map_map, Function.comp_def]

theorem size_untimed (h : c.sizes.Timeless) : c.untimed.size = c.size := by
  have hentry (p : Address × Entry) : entrySize c.sizes p.1.key p.2.record.untimed =
      entrySize c.sizes p.1.key p.2.record := by rw [entrySize, entrySize, h]
  rw [size, size]
  simp only [untimed, networks, Table.map, List.map_map, Function.comp_def, hentry]

theorem stats_untimed (h : c.sizes.Timeless) : c.untimed.stats = c.stats := by
  rw [stats, stats, size_untimed h]
  simp [untimed, networks, Table.map, Table.size]

/-! ### Caches that hold the same -/

/-- The records without the numbers of the writes that put them there. -/
def records (c : PriceCache) : Table Address Record := c.entries.map Entry.record

/-- The caches track the same feeds, hold the same records, have counted the same and measure
alike. -/
structure Agrees (c d : PriceCache) : Prop where
  /-- the feeds -/
  feeds : c.feeds = d.feeds
  /-- the records -/
  records : c.records = d.records
  /-- the number of the latest write -/
  writes : c.writes = d.writes
  /-- the updates -/
  updates : c.updates = d.updates
  /-- the evictions -/
  evictions : c.evictions = d.evictions
  /-- the caps -/
  cap : c.cap = d.cap
  /-- the sizes of records -/
  sizes : c.sizes.Alike d.sizes

theorem get_eq_records (c : PriceCache) (f : Feed) :
    c.get f = (c.records.get? f.address).elim (.error (.notFound f)) .ok := by
  rw [get_eq_elim, filed?, records, Table.get?_map]

theorem getAll_eq_records (c : PriceCache) (n : NetworkId) :
    c.getAll n = (c.records.toList.filter fun p => p.1.network = n).map
      fun p => (p.1.key, p.2) := by
  simp only [getAll, records, Table.map, List.filter_map, List.map_map]
  rfl

theorem size_eq_records (c : PriceCache) :
    c.size = total (c.networks.map fun _ => networkOverhead) +
      total (c.feeds.keys.map fun a => feedSize a.key) +
      total (c.records.toList.map fun p => entrySize c.sizes p.1.key p.2) := by
  simp only [size, records, Table.map, List.map_map, Function.comp_def]

theorem Agrees.size (h : c.Agrees d) : c.size = d.size := by
  rw [size_eq_records, size_eq_records, networks, networks, h.feeds, h.records]
  simp only [entrySize_congr h.sizes]

theorem Agrees.stats (h : c.Agrees d) : c.stats = d.stats := by
  have hcount (c : PriceCache) : c.entries.size = c.records.size := (List.length_map _).symm
  rw [PriceCache.stats, PriceCache.stats, h.size, networks, networks, hcount, hcount, h.feeds,
    h.records, h.updates, h.evictions, h.cap]

/-- **No answer tells caches apart that hold the same.** -/
theorem Agrees.answer (h : c.Agrees d) (q : CacheQuery) : c.answer q = d.answer q := by
  have hall (n : NetworkId) : c.getAll n = d.getAll n := by
    rw [getAll_eq_records, getAll_eq_records, h.records]
  cases q with
  | record f =>
    refine congrArg CacheAnswer.record ?_
    rw [get_eq_records, get_eq_records, h.records]
  | all n => exact congrArg CacheAnswer.records (hall n)
  | bySource n s =>
    refine congrArg CacheAnswer.records ?_
    rw [getAllBySource, getAllBySource, hall]
  | tracked =>
    refine congrArg CacheAnswer.feeds ?_
    rw [tracked, tracked, h.feeds]
  | trackedOn n =>
    refine congrArg CacheAnswer.feeds ?_
    rw [trackedFeeds, trackedFeeds, h.feeds]
  | size => exact congrArg CacheAnswer.bytes h.size
  | stats => exact congrArg CacheAnswer.stats h.stats
  | weigh r => exact congrArg CacheAnswer.bytes (h.sizes.weigh r)

/-- The caches answer alike, but for the moments at which the records were observed. -/
structure AnswersAlike (c d : PriceCache) : Prop where
  /-- the record of a feed -/
  get : ∀ f, (c.get f).map Record.untimed = (d.get f).map Record.untimed
  /-- the records of a network -/
  getAll : ∀ n, (c.getAll n).map (fun p => (p.1, p.2.untimed)) =
    (d.getAll n).map fun p => (p.1, p.2.untimed)
  /-- those from one source -/
  getAllBySource : ∀ n s, (c.getAllBySource n s).map (fun p => (p.1, p.2.untimed)) =
    (d.getAllBySource n s).map fun p => (p.1, p.2.untimed)
  /-- the feeds -/
  tracked : c.tracked = d.tracked
  /-- the feeds of a network -/
  trackedFeeds : ∀ n, c.trackedFeeds n = d.trackedFeeds n

theorem Agrees.answersAlike (h : c.untimed.Agrees d.untimed) : c.AnswersAlike d where
  get f := by
    rw [← get_untimed, ← get_untimed]
    exact CacheAnswer.record.inj (h.answer (.record f))
  getAll n := by
    rw [← getAll_untimed, ← getAll_untimed]
    exact CacheAnswer.records.inj (h.answer (.all n))
  getAllBySource n s := by
    rw [← getAllBySource_untimed, ← getAllBySource_untimed]
    exact CacheAnswer.records.inj (h.answer (.bySource n s))
  tracked := CacheAnswer.feeds.inj (h.answer .tracked)
  trackedFeeds n := CacheAnswer.feeds.inj (h.answer (.trackedOn n))

/-- Sizes, and the statistics they are part of, may depend on these moments by registered functions
only. -/
theorem Agrees.size_stats (h : c.untimed.Agrees d.untimed) (hsizes : c.sizes.Timeless) :
    c.size = d.size ∧ c.stats = d.stats := by
  have hsizes' : d.sizes.Timeless := h.sizes.timeless hsizes
  rw [← size_untimed hsizes, ← size_untimed hsizes', ← stats_untimed hsizes,
    ← stats_untimed hsizes']
  exact ⟨h.size, h.stats⟩

/-! ### Writes that push nothing out -/

/-- Whenever a call comes to make room, there is room. -/
def Roomy (c : PriceCache) (calls : List CacheCall) : Prop :=
  ∀ before call later, calls = before ++ call :: later →
    ((c.run before).filedBy call).exactSize ≤ c.cap.toNat

theorem roomy_nil (c : PriceCache) : c.Roomy [] := by
  intro before call later h
  simp at h

theorem roomy_cons_iff {call : CacheCall} {calls : List CacheCall} :
    c.Roomy (call :: calls) ↔
      (c.filedBy call).exactSize ≤ c.cap.toNat ∧ (c.make call).1.Roomy calls := by
  constructor
  · intro h
    refine ⟨h [] call calls rfl, ?_⟩
    rintro before next later rfl
    rw [cap_make]
    exact h (call :: before) next later rfl
  · rintro ⟨hfirst, hrest⟩ before next later heq
    cases before with
    | nil =>
      obtain ⟨rfl, -⟩ := List.cons.inj heq
      exact hfirst
    | cons first before =>
      obtain ⟨rfl, hcalls⟩ := List.cons.inj heq
      have hroom := hrest before next later hcalls
      rwa [cap_make] at hroom

theorem make_put_of_fits {f : Feed} {r : Record} (h : (c.file f r).exactSize ≤ c.cap.toNat) :
    c.make (.put f r) = ((c.file f r).weighed, []) := by
  have hlt : (c.file f r).exactSize < UInt64.size := Nat.lt_of_le_of_lt h c.cap.toNat_lt_size
  have hfits : (c.file f r).size ≤ (c.file f r).cap := by
    rw [UInt64.le_iff_toNat_le, toNat_size hlt, cap_file]
    exact h
  rw [make, put, pruneSparing, if_pos hfits]

@[simp] theorem sizes_addFeed (c : PriceCache) (f : Feed) : (c.addFeed f).sizes = c.sizes := by
  rw [addFeed]
  split <;> rfl

/-- What some writes make of a cache when they push nothing out. -/
structure Fills (c : PriceCache) (ws : List Write) (d : PriceCache) : Prop where
  /-- they are all that is noted -/
  journal : c.journal (ws.map Write.call) = ws.map fun w => .written w.feed w.record
  /-- they are numbered -/
  writes : d.writes = c.writes + ws.length
  /-- they are counted -/
  updates : d.updates = c.updates + ws.length
  /-- nothing else is -/
  evictions : d.evictions = c.evictions
  /-- the cap is what it was -/
  cap : d.cap = c.cap
  /-- so are the sizes of records -/
  sizes : c.sizes.Alike d.sizes

theorem Roomy.fills {ws : List Write} (h : c.Roomy (ws.map Write.call)) :
    c.Fills ws (c.run (ws.map Write.call)) := by
  induction ws generalizing c with
  | nil => exact ⟨rfl, rfl, rfl, rfl, rfl, .refl _⟩
  | cons w ws ih =>
    obtain ⟨hfirst, htail⟩ := roomy_cons_iff.mp h
    have hmake : c.make w.call = ((c.file w.feed w.record).weighed, []) := make_put_of_fits hfirst
    have hrest := ih htail
    have hsizes : c.sizes.Alike (c.file w.feed w.record).weighed.sizes := by
      rw [← sizes_addFeed c w.feed]
      exact SizeRegistry.alike_rememberAll _ _
    rw [List.map_cons, run_cons]
    refine ⟨?_, ?_, ?_, ?_, hrest.cap.trans (cap_make c w.call), ?_⟩
    · have hnotes : c.notes w.call =
          [.written w.feed w.record] ++ (c.make w.call).2.map .evicted := rfl
      rw [List.map_cons, PriceCache.journal, hrest.journal, hnotes, hmake]
      rfl
    · rw [hrest.writes, writes_make, List.length_cons]
      change c.writes + 1 + ws.length = _
      omega
    · rw [hrest.updates, updates_make, List.length_cons]
      change c.updates + 1 + ws.length = _
      omega
    · rw [hrest.evictions, evictions_make, hmake]
      rfl
    · have halike := hrest.sizes
      rw [hmake] at halike ⊢
      exact hsizes.trans halike

/-- A feed holds the record that was written for it last, whatever else was written. -/
theorem foldl_after_written (f : Feed) (ws : List Write) (held : Option Record) :
    (ws.map fun w => CacheNote.written w.feed w.record).foldl (CacheNote.after f) held =
      ((ws.filter fun w => w.feed = f).map Write.record).foldl (fun _ r => some r) held := by
  induction ws generalizing held with
  | nil => rfl
  | cons w ws ih =>
    rw [List.map_cons, List.foldl_cons, ih, CacheNote.after]
    by_cases hw : w.feed = f <;> simp [hw]

theorem map_untimed_foldl (rs : List Record) (held : Option Record) :
    (rs.foldl (fun _ r => some r) held).map Record.untimed =
      (rs.map Record.untimed).foldl (fun _ r => some r) (held.map Record.untimed) := by
  induction rs generalizing held with
  | nil => rfl
  | cons r rs ih => exact ih (some r)

/-! ### Two orders -/

/-- Two lists of writes have, for each feed, the same records in the same order, but for the moments
at which they were observed. -/
def SameByFeed (ws ws' : List Write) : Prop :=
  ∀ f, (ws.map Write.untimed).filter (fun w => w.feed = f) =
    (ws'.map Write.untimed).filter (fun w => w.feed = f)

variable {ws ws' : List Write}

theorem SameByFeed.perm (h : SameByFeed ws ws') :
    (ws.map Write.untimed).Perm (ws'.map Write.untimed) := by
  refine List.perm_iff_count.mpr fun w => ?_
  have hcount (l : List Write) : l.count w = (l.filter fun w' => w'.feed = w.feed).count w := by
    rw [List.count_filter (by simp)]
  rw [hcount, hcount (ws'.map Write.untimed), h]

theorem SameByFeed.map_feed_perm (h : SameByFeed ws ws') :
    (ws.map Write.feed).Perm (ws'.map Write.feed) := by
  have hfeeds := h.perm.map Write.feed
  rwa [List.map_map, List.map_map] at hfeeds

theorem SameByFeed.map_record (h : SameByFeed ws ws') (f : Feed) :
    ((ws.filter fun w => w.feed = f).map Write.record).map Record.untimed =
      ((ws'.filter fun w => w.feed = f).map Write.record).map Record.untimed := by
  have hsame := congrArg (List.map Write.record) (h f)
  simp only [List.filter_map, List.map_map] at hsame ⊢
  exact hsame

theorem Filed.feeds_toList (h : c.Filed) :
    c.feeds.toList = c.tracked.map fun f => (f.address, f) := by
  rw [tracked, Table.values, List.map_map]
  refine (List.map_id _).symm.trans (List.map_congr_left fun p hp => ?_)
  exact Prod.ext (h.feeds_address (h.feeds_sorted.mem_toList.mp hp)).symm rfl

theorem Filed.feeds_eq (h : c.Filed) (h' : d.Filed) (hmem : ∀ f, f ∈ c.tracked ↔ f ∈ d.tracked) :
    c.feeds = d.feeds := by
  have hlist := h.feeds_toList
  rw [h.tracked_eq h' hmem, ← h'.feeds_toList] at hlist
  exact congrArg Table.mk hlist

/-- Records lie only where feeds are listed, so it is enough to look feeds up. -/
theorem Filed.records_untimed_eq (h : c.Filed) (h' : d.Filed) (hfeeds : c.feeds = d.feeds)
    (hfiled : ∀ f, (c.filed? f).map Record.untimed = (d.filed? f).map Record.untimed) :
    c.untimed.records = d.untimed.records := by
  refine ((h.entries_sorted.map _).map _).ext ((h'.entries_sorted.map _).map _) fun a => ?_
  have hget (c : PriceCache) : c.untimed.records.get? a =
      ((c.entries.get? a).map Entry.record).map Record.untimed := by
    rw [records, untimed, Table.get?_map, Table.get?_map, Option.map_map, Option.map_map]
    rfl
  change c.untimed.records.get? a = d.untimed.records.get? a
  rw [hget, hget]
  cases hfeed : c.feeds.get? a with
  | some f =>
    have ha : f.address = a := h.feeds_address hfeed
    rw [← ha]
    exact hfiled f
  | none =>
    have hnone {c : PriceCache} (h : c.Filed) (hfeed : c.feeds.get? a = none) :
        c.entries.get? a = none := by
      refine Option.eq_none_iff_forall_ne_some.mpr fun e he => ?_
      obtain ⟨f, hf⟩ := h.entries_tracked he
      rw [hfeed] at hf
      cases hf
    rw [hnone h hfeed, hnone h' (hfeeds ▸ hfeed)]

/-- **The order in which different feeds are written does not matter**, if nothing is pushed out. -/
theorem Filed.agrees (h : c.Filed) (hroomy : c.Roomy (ws.map Write.call))
    (hroomy' : c.Roomy (ws'.map Write.call)) (hsame : SameByFeed ws ws') :
    (c.run (ws.map Write.call)).untimed.Agrees (c.run (ws'.map Write.call)).untimed := by
  have hfills := hroomy.fills
  have hfills' := hroomy'.fills
  have hfiled := h.run (ws.map Write.call)
  have hfiled' := h.run (ws'.map Write.call)
  have hfeeds : (c.run (ws.map Write.call)).feeds = (c.run (ws'.map Write.call)).feeds := by
    refine hfiled.feeds_eq hfiled' fun f => ?_
    have hnames (ws : List Write) :
        (∃ call ∈ ws.map Write.call, call.Names f) ↔ f ∈ ws.map Write.feed := by
      simp [Write.call, CacheCall.Names]
    rw [h.mem_tracked_run, h.mem_tracked_run, hnames, hnames, hsame.map_feed_perm.mem_iff]
  have hlength : ws.length = ws'.length := by
    have hperm := hsame.perm.length_eq
    rwa [List.length_map, List.length_map] at hperm
  refine ⟨hfeeds, ?_, ?_, ?_, ?_, ?_, ?_⟩
  · refine hfiled.records_untimed_eq hfiled' hfeeds fun f => ?_
    rw [h.filed?_run, h.filed?_run, hfills.journal, hfills'.journal, foldl_after_written,
      foldl_after_written, map_untimed_foldl, map_untimed_foldl, hsame.map_record]
  · exact hfills.writes.trans (hlength ▸ hfills'.writes.symm)
  · exact hfills.updates.trans (hlength ▸ hfills'.updates.symm)
  · exact hfills.evictions.trans hfills'.evictions.symm
  · exact hfills.cap.trans hfills'.cap.symm
  · exact hfills.sizes.symm.trans hfills'.sizes

end PriceCache

end PriceRelay
