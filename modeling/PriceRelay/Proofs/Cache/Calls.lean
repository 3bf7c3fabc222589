import PriceRelay.Proofs.Cache.Filing
import PriceRelay.Proofs.Size
/-!
# Calls to the cache

Whatever is done to a cache is a list of calls: tracking, writing, making room, registering a size
function, and reading. Some reads measure records, which makes the registry remember their kinds;
nothing else about a cache ever changes by a read, and what is remembered never shows.

* `CacheCall` and `CacheQuery` list the calls and the reads,
* `PriceCache.make` makes a call, `PriceCache.run` makes some in their order,
* `PriceCache.journal` notes the records that the calls wrote and pushed out,
* `PriceCache.Alike` relates caches that differ in what is remembered only, which no answer tells
  apart (`PriceCache.Alike.answer`) and every call keeps (`PriceCache.Alike.make`).
-/

namespace PriceRelay

/-- What can be asked of a cache. -/
inductive CacheQuery
  /-- the latest record of a feed -/
  | record (f : Feed)
  /-- the records of a network -/
  | all (n : NetworkId)
  /-- the records of a source on a network -/
  | bySource (n : NetworkId) (s : Source)
  /-- every tracked feed -/
  | tracked
  /-- the tracked feeds of a network -/
  | trackedOn (n : NetworkId)
  /-- the accounted size -/
  | size
  /-- the counts -/
  | stats
  /-- the size of a record -/
  | weigh (r : Record)

/-- What a cache answers. -/
inductive CacheAnswer
  /-- a record, or that there is none -/
  | record (a : Except Fault Record)
  /-- some records, each with the text it is found by -/
  | records (l : List (String × Record))
  /-- some feeds -/
  | feeds (l : List Feed)
  /-- a size -/
  | bytes (n : UInt64)
  /-- counts -/
  | stats (s : CacheStats)

/-- What can be done to a cache. -/
inductive CacheCall
  /-- start to track a feed -/
  | addFeed (f : Feed)
  /-- write a record of a feed -/
  | put (f : Feed) (r : Record)
  /-- make room -/
  | prune
  /-- register a size function for a kind of record -/
  | register (k : Record.Kind) (g : SizeFn)
  /-- ask something -/
  | query (q : CacheQuery)

/-- Whether a call gives the cache a feed to track. -/
def CacheCall.Names (f : Feed) : CacheCall → Prop
  | addFeed g => g = f
  | put g _ => g = f
  | _ => False

/-- What became of the record of a feed. -/
inductive CacheNote
  /-- it was written -/
  | written (f : Feed) (r : Record)
  /-- it was pushed out -/
  | evicted (f : Feed)

namespace PriceCache

/-- The answer to a query. -/
def answer (c : PriceCache) : CacheQuery → CacheAnswer
  | .record f => .record (c.get f)
  | .all n => .records (c.getAll n)
  | .bySource n s => .records (c.getAllBySource n s)
  | .tracked => .feeds c.tracked
  | .trackedOn n => .feeds (c.trackedFeeds n)
  | .size => .bytes c.size
  | .stats => .stats c.stats
  | .weigh r => .bytes (c.sizes.weigh r)

/-- The cache after a query: the kinds of the records that were measured are remembered. -/
def asked (c : PriceCache) : CacheQuery → PriceCache
  | .size => c.weighed
  | .stats => c.weighed
  | .weigh r => { c with sizes := c.sizes.remember r }
  | _ => c

/-- Make a call. Beside the cache, the feeds whose records went are told. -/
def make (c : PriceCache) : CacheCall → PriceCache × List Feed
  | .addFeed f => (c.addFeed f, [])
  | .put f r => ((c.put f r).1, (c.put f r).2.evicted)
  | .prune => (c.prune.1, c.prune.2.evicted)
  | .register k g => (c.registerSize k g, [])
  | .query q => (c.asked q, [])

/-- Make some calls, one after another. -/
def run (c : PriceCache) (calls : List CacheCall) : PriceCache :=
  calls.foldl (fun c call => (c.make call).1) c

/-- What a call wrote, and what it pushed out after that. -/
def notes (c : PriceCache) (call : CacheCall) : List CacheNote :=
  (match call with
    | .put f r => [.written f r]
    | _ => []) ++ (c.make call).2.map .evicted

/-- What some calls wrote and pushed out, in the order in which they did. -/
def journal (c : PriceCache) : List CacheCall → List CacheNote
  | [] => []
  | call :: calls => c.notes call ++ (c.make call).1.journal calls

@[simp] theorem run_nil (c : PriceCache) : c.run [] = c := rfl

@[simp] theorem run_cons (c : PriceCache) (call : CacheCall) (calls : List CacheCall) :
    c.run (call :: calls) = (c.make call).1.run calls :=
  rfl

theorem run_append (c : PriceCache) (calls more : List CacheCall) :
    c.run (calls ++ more) = (c.run calls).run more :=
  List.foldl_append

theorem journal_append (c : PriceCache) (calls more : List CacheCall) :
    c.journal (calls ++ more) = c.journal calls ++ (c.run calls).journal more := by
  induction calls generalizing c with
  | nil => rfl
  | cons call calls ih =>
    rw [List.cons_append, journal, ih, journal, run_cons, List.append_assoc]

/-! ### The invariant along a run -/

theorem Filed.make {c : PriceCache} (h : c.Filed) (call : CacheCall) : (c.make call).1.Filed := by
  cases call with
  | addFeed f => exact h.addFeed f
  | put f r => exact (h.file f r).pruneSparing _
  | prune => exact h.pruneSparing none
  | register k g => exact h.with_sizes _
  | query q => cases q <;> first | exact h | exact h.with_sizes _

theorem Filed.run {c : PriceCache} (h : c.Filed) (calls : List CacheCall) :
    (c.run calls).Filed := by
  induction calls generalizing c with
  | nil => exact h
  | cons call calls ih => exact ih (h.make call)

/-- No call changes the cap. -/
theorem cap_make (c : PriceCache) (call : CacheCall) : (c.make call).1.cap = c.cap := by
  cases call with
  | addFeed f => exact cap_addFeed c f
  | put f r => exact (cap_pruneSparing _ _).trans (cap_file c f r)
  | prune => exact cap_pruneSparing c none
  | register k g => rfl
  | query q => cases q <;> rfl

/-! ### What is remembered does not show -/

/-- The caches differ in what their registries remember, if in anything. -/
structure Alike (c d : PriceCache) : Prop where
  /-- all else is the same -/
  same : d = { c with sizes := d.sizes }
  /-- the registries measure alike -/
  sizes : c.sizes.Alike d.sizes

theorem Alike.refl (c : PriceCache) : c.Alike c := ⟨rfl, .refl _⟩

theorem alike_asked (c : PriceCache) (q : CacheQuery) : c.Alike (c.asked q) := by
  cases q with
  | size => exact ⟨rfl, SizeRegistry.alike_rememberAll _ _⟩
  | stats => exact ⟨rfl, SizeRegistry.alike_rememberAll _ _⟩
  | weigh r => exact ⟨rfl, SizeRegistry.alike_remember _ r⟩
  | _ => exact Alike.refl c

variable {c d : PriceCache}

theorem Alike.symm (h : c.Alike d) : d.Alike c :=
  ⟨by rw [h.same], h.sizes.symm⟩

theorem Alike.trans {e : PriceCache} (h : c.Alike d) (h' : d.Alike e) : c.Alike e :=
  ⟨by rw [h'.same, h.same], h.sizes.trans h'.sizes⟩

theorem entrySize_congr {s t : SizeRegistry} (h : s.Alike t) (key : String) (r : Record) :
    entrySize s key r = entrySize t key r := by
  rw [entrySize, entrySize, h.weigh]

theorem Alike.size (h : c.Alike d) : c.size = d.size := by
  rw [h.same, PriceCache.size, PriceCache.size]
  simp only [entrySize_congr h.sizes]
  rfl

/-- **No answer tells alike caches apart.** -/
theorem Alike.answer (h : c.Alike d) (q : CacheQuery) : c.answer q = d.answer q := by
  have hsize := h.size
  cases q with
  | size => exact congrArg CacheAnswer.bytes hsize
  | stats =>
    have hstats : c.stats = d.stats := by
      rw [PriceCache.stats, PriceCache.stats, hsize, h.same]
      rfl
    exact congrArg CacheAnswer.stats hstats
  | weigh r => exact congrArg CacheAnswer.bytes (h.sizes.weigh r)
  | _ => rw [h.same]; rfl

theorem Alike.candidates (h : c.Alike d) (spare : Option Address) :
    c.candidates spare = d.candidates spare := by
  rw [h.same, PriceCache.candidates, PriceCache.candidates]
  simp only [entrySize_congr h.sizes]

theorem Alike.evict (h : c.Alike d) (ordered : List Candidate) :
    c.evict ordered = d.evict ordered := by
  have hsize := h.size
  rw [PriceCache.evict, PriceCache.evict, hsize, h.same]

/-- A pass over alike caches does the same to both. -/
theorem Alike.pruneSparing (h : c.Alike d) (spare : Option Address) :
    (c.pruneSparing spare).1.Alike (d.pruneSparing spare).1 ∧
      (c.pruneSparing spare).2 = (d.pruneSparing spare).2 := by
  -- both remember more after the pass, each what it did not know of its own records
  have hweighed : c.weighed.sizes.Alike d.weighed.sizes :=
    (SizeRegistry.alike_rememberAll _ _).symm.trans
      (h.sizes.trans (SizeRegistry.alike_rememberAll _ _))
  have hpolicy : d.policy = c.policy := by rw [h.same]
  have hcap : d.cap = c.cap := by rw [h.same]
  have hevict : d.evict = c.evict := funext fun ordered => (h.evict ordered).symm
  rw [PriceCache.pruneSparing, PriceCache.pruneSparing, ← h.size, ← h.candidates, hpolicy, hcap,
    hevict]
  split
  · exact ⟨⟨by rw [h.same]; rfl, hweighed⟩, rfl⟩
  · refine ⟨⟨?_, hweighed⟩, rfl⟩
    rw [h.same]
    rfl

theorem Alike.addFeed (h : c.Alike d) (f : Feed) : (c.addFeed f).Alike (d.addFeed f) := by
  have hfeeds : d.feeds = c.feeds := by rw [h.same]
  rw [PriceCache.addFeed, PriceCache.addFeed, hfeeds]
  split
  · exact h
  · refine ⟨?_, h.sizes⟩
    rw [h.same]

theorem Alike.file (h : c.Alike d) (f : Feed) (r : Record) : (c.file f r).Alike (d.file f r) := by
  have hadd := h.addFeed f
  refine ⟨?_, hadd.sizes⟩
  rw [PriceCache.file, PriceCache.file, hadd.same, h.same]

/-- **Every call does the same to alike caches.** -/
theorem Alike.make (h : c.Alike d) (call : CacheCall) :
    (c.make call).1.Alike (d.make call).1 ∧ (c.make call).2 = (d.make call).2 := by
  cases call with
  | addFeed f => exact ⟨h.addFeed f, rfl⟩
  | put f r =>
    obtain ⟨halike, hout⟩ := (h.file f r).pruneSparing (some f.address)
    exact ⟨halike, congrArg PruneOutcome.evicted hout⟩
  | prune =>
    obtain ⟨halike, hout⟩ := h.pruneSparing none
    exact ⟨halike, congrArg PruneOutcome.evicted hout⟩
  | register k g =>
    refine ⟨⟨?_, h.sizes.register k g⟩, rfl⟩
    rw [PriceCache.make, PriceCache.make, registerSize, registerSize, h.same]
  | query q => exact ⟨(alike_asked c q).symm.trans (h.trans (alike_asked d q)), rfl⟩

theorem Alike.notes (h : c.Alike d) (call : CacheCall) : c.notes call = d.notes call := by
  unfold PriceCache.notes
  rw [(h.make call).2]

theorem Alike.run (h : c.Alike d) (calls : List CacheCall) : (c.run calls).Alike (d.run calls) := by
  induction calls generalizing c d with
  | nil => exact h
  | cons call calls ih => exact ih (h.make call).1

theorem Alike.journal (h : c.Alike d) (calls : List CacheCall) :
    c.journal calls = d.journal calls := by
  induction calls generalizing c d with
  | nil => rfl
  | cons call calls ih =>
    rw [PriceCache.journal, PriceCache.journal, h.notes, ih (h.make call).1]

end PriceCache

end PriceRelay
