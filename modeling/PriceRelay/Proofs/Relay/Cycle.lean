import Mathlib.Data.List.Perm.Subperm
import PriceRelay.Proofs.Cache.Ledger
import PriceRelay.Proofs.List
import PriceRelay.Proofs.Relay.Deeds
/-!
# What a cycle writes and counts

The fetches of a cycle and its batch go on in any order, and others go on in between. All the same
the writes of a cycle are those of the feeds it set out to fetch, and its counts follow from them.

* `CycleRun.Course` are the runs of a cycle among others, with what it has written so far;
  `CycleRun.Course.cache_eq` says that this is what happens to the cache, and
  `CycleRun.Course.poll` that looking at a cycle is such a run,
* `CycleRun.Accounts` says what has been written, `CycleRun.Course.accounts` that every run keeps to
  it,
* `CycleRun.Course.quotes_of_reply` says that the quotes it writes are those of one reply,
  `CycleRun.Course.nodup_quotes` when it writes none of them twice,
* `CycleRun.report_counts` says what a report counts,
* `CycleRun.writes_and_tracks` says which feeds are written, and which are tracked then.
-/

namespace PriceRelay

variable {σ : Type}

namespace CycleRun

/-- The cycle is over with this report. -/
def Concludes (c : CycleRun) (report : CycleReport) : Prop :=
  ∃ fetched stored, c.fetches.mapM (fun p => p.fetch.answer?) = some fetched ∧
    c.batch.batch.answer? = some stored ∧ report = .ofAnswers c.plan fetched stored

section Course

variable (owner : Nat) (may : Relay σ → Relay σ → Prop) (r₀ : Relay σ)

/-- The runs of a cycle that begins at `r₀`, with what it has written so far. In between others do
what they may. -/
inductive Course : List Write → CycleRun → Relay σ → Prop
  /-- it begins -/
  | begin : Course [] (begin r₀) r₀
  /-- others go on -/
  | others {log c r r'} : Course log c r → may r r' → Course log c r'
  /-- one of its fetches goes on -/
  | fetch {log c r r' i p p'} : Course log c r → c.fetches[i]? = some p →
      p.step? owner r = some (p', r') →
      Course (log ++ p'.fetch.written) { c with fetches := c.fetches.set i p' } r'
  /-- its batch goes on -/
  | batch {log c r r' b'} : Course log c r → c.batch.step? owner r = some (b', r') →
      Course (log ++ c.batch.written r) { c with batch := b' } r'
  /-- it is concluded, if everything has come to its end -/
  | conclude {log c r} : Course log c r → c.report = none →
      Course log (c.conclude r).1 (c.conclude r).2
  /-- the fetches and the batch take turns -/
  | turn {log c r} (first : Bool) : Course log c r → Course log { c with batchFirst := first } r

end Course

variable {owner : Nat} {may : Relay σ → Relay σ → Prop} {r₀ r r' : Relay σ} {log : List Write}
  {c : CycleRun}

theorem cache_conclude (c : CycleRun) (r : Relay σ) : (c.conclude r).2.cache = r.cache := by
  rw [CycleRun.conclude]
  split <;> rfl

/-- Where others leave the cache alone, it is what the writes of the cycle make of it. -/
theorem Course.cache_eq (h : Course owner may r₀ log c r)
    (hmay : ∀ {r r' : Relay σ}, may r r' → r'.cache = r.cache) :
    r.cache = r₀.cache.run (log.map Write.call) := by
  induction h with
  | begin => rfl
  | others _ hother ih => exact (hmay hother).trans ih
  | fetch _ _ hstep ih =>
    rw [(FetchRun.advances_of_step? hstep).cache, ih, List.map_append, PriceCache.run_append]
  | batch _ hstep ih =>
    rw [(BatchRun.advances_of_step? hstep).cache, ih, List.map_append, PriceCache.run_append]
  | conclude _ _ ih => exact (cache_conclude _ _).trans ih
  | turn _ _ ih => exact ih

/-! ### Looking at a cycle -/

theorem Course.pollFor {i : Nat} {p : FetchRun} (h : Course owner may r₀ log c r)
    (hp : c.fetches[i]? = some p) (fuel : Nat) :
    ∃ more, Course owner may r₀ (log ++ more)
      { c with fetches := c.fetches.set i (p.pollFor owner fuel r).1 }
      (p.pollFor owner fuel r).2 := by
  induction fuel generalizing log c p r with
  | zero =>
    rw [FetchRun.pollFor, set_eq_self hp]
    exact ⟨[], by rwa [List.append_nil]⟩
  | succ fuel ih =>
    rw [FetchRun.pollFor]
    split
    · rw [set_eq_self hp]
      exact ⟨[], by rwa [List.append_nil]⟩
    · next p' r' hstep =>
      have hp' : (c.fetches.set i p')[i]? = some p' :=
        List.getElem?_set_self (List.getElem?_eq_some_iff.mp hp).1
      obtain ⟨more, hmore⟩ := ih (h.fetch hp hstep) hp'
      rw [List.append_assoc, List.set_set] at hmore
      exact ⟨_, hmore⟩

theorem Course.pollAll {before rest : List FetchRun} (h : Course owner may r₀ log c r)
    (hc : c.fetches = before ++ rest) :
    ∃ more, Course owner may r₀ (log ++ more)
      { c with fetches := before ++ (FetchRun.pollAll owner rest r).1 }
      (FetchRun.pollAll owner rest r).2 := by
  induction rest generalizing log c r before with
  | nil =>
    rw [FetchRun.pollAll, ← hc]
    exact ⟨[], by rwa [List.append_nil]⟩
  | cons p rest ih =>
    have hp : c.fetches[before.length]? = some p := by
      rw [hc, List.getElem?_append_right (Nat.le_refl _), Nat.sub_self]
      rfl
    obtain ⟨first, hfirst⟩ := h.pollFor hp Relay.patience
    rw [hc, List.set_append_right _ _ (Nat.le_refl _), Nat.sub_self, List.set_cons_zero,
      List.append_cons] at hfirst
    obtain ⟨more, hmore⟩ := ih hfirst rfl
    simp only [List.append_assoc] at hmore
    exact ⟨_, hmore⟩

theorem Course.pollBatch (h : Course owner may r₀ log c r) :
    ∃ more, Course owner may r₀ (log ++ more) { c with batch := (c.batch.poll owner r).1 }
      (c.batch.poll owner r).2 := by
  suffices hfold : ∀ turns : List Nat, ∃ more, Course owner may r₀ (log ++ more)
      { c with batch := (turns.foldl (fun s _ => (s.1.step? owner s.2).getD s) (c.batch, r)).1 }
      (turns.foldl (fun s _ => (s.1.step? owner s.2).getD s) (c.batch, r)).2 from hfold _
  intro turns
  induction turns generalizing log c r with
  | nil => exact ⟨[], by rwa [List.append_nil]⟩
  | cons turn turns ih =>
    rw [List.foldl_cons]
    cases hstep : c.batch.step? owner r with
    | none => exact ih h
    | some s =>
      obtain ⟨b', r'⟩ := s
      obtain ⟨more, hmore⟩ := ih (h.batch hstep)
      rw [List.append_assoc] at hmore
      exact ⟨_, hmore⟩

/-- **To look at a cycle is to let it go on.** -/
theorem Course.poll (h : Course owner may r₀ log c r) :
    ∃ more, Course owner may r₀ (log ++ more) (c.poll owner r).1 (c.poll owner r).2 := by
  rw [CycleRun.poll]
  split
  · exact ⟨[], by rwa [List.append_nil]⟩
  · next hreport =>
    have hopen : c.report = none := Option.not_isSome_iff_eq_none.mp hreport
    split
    · obtain ⟨first, hfirst⟩ := h.pollBatch
      obtain ⟨more, hmore⟩ := hfirst.pollAll (List.nil_append _).symm
      rw [List.append_assoc] at hmore
      exact ⟨_, (hmore.turn false).conclude hopen⟩
    · obtain ⟨first, hfirst⟩ := h.pollAll (List.nil_append _).symm
      obtain ⟨more, hmore⟩ := hfirst.pollBatch
      rw [List.append_assoc] at hmore
      exact ⟨_, (hmore.turn true).conclude hopen⟩

/-! ### What was written -/

/-- What a cycle over some feeds has written and counted. -/
structure Accounts (hasService : Bool) (feeds : List Feed) (log : List Write) (c : CycleRun) :
    Prop where
  /-- it set out to fetch those feeds -/
  plan : c.plan = .ofFeeds hasService feeds
  /-- each aggregator has a fetch -/
  fetches : c.fetches.map (fun p => p.fetch.feed) = c.plan.aggregators
  /-- the ids are asked for -/
  ids : c.batch.batch.ids = c.plan.ids
  /-- the fetches and the batch have written all that was written -/
  written : ∃ quoted : List Write,
    log.Perm (c.fetches.flatMap (fun p => p.fetch.written) ++ quoted) ∧
      quoted.length = c.batch.batch.stored ∧
      ∀ w ∈ quoted, ∃ id ∈ c.plan.ids, w.feed = ⟨.offChain, .pyth, id⟩
  /-- the report was made when everything had come to its end -/
  report : ∀ report, c.report = some report → c.Concludes report

/-- Work that is not finished has no part in a report. -/
theorem Concludes.ne_none {report : CycleReport} (h : c.Concludes report) :
    (∀ p ∈ c.fetches, p.fetch.answer? ≠ none) ∧ c.batch.batch.answer? ≠ none := by
  obtain ⟨fetched, stored, hfetched, hstored, -⟩ := h
  refine ⟨fun p hp hnone => ?_, fun hnone => ?_⟩
  · have hmem : p.fetch.answer? ∈ fetched.map some :=
      mapM_eq_some_iff.mp hfetched ▸ List.mem_map_of_mem hp
    obtain ⟨answer, -, hanswer⟩ := List.mem_map.mp hmem
    rw [hnone] at hanswer
    cases hanswer
  · rw [hstored] at hnone
    cases hnone

theorem accounts_begin (r : Relay σ) :
    Accounts r.providers.quotes.isSome r.cache.tracked [] (begin r) := by
  let plan : CyclePlan := .ofFeeds r.providers.quotes.isSome r.cache.tracked
  refine ⟨rfl, ?_, ?_, ⟨[], ?_, ?_, fun w hw => (nomatch hw)⟩, fun report h => (nomatch h)⟩
  · -- an aggregator is what its fetch takes it for
    have hfeed (f : Feed) (hf : f ∈ plan.aggregators) :
        Fetch.feed { network := f.network, address := f.identifier } = f := by
      rw [CyclePlan.aggregators_ofFeeds] at hf
      have hsource : f.source = .chainlink := of_decide_eq_true (List.mem_filter.mp hf).2
      rw [Fetch.feed, ← hsource]
    have hmap : plan.aggregators.map
        (fun f => Fetch.feed { network := f.network, address := f.identifier }) =
          plan.aggregators := (List.map_congr_left hfeed).trans (List.map_id' _)
    rw [begin, CyclePlan.fetches, List.map_map, List.map_map]
    exact hmap
  · rw [begin, CyclePlan.batch, Batch.begin]
    split <;> rfl
  · have hnil : (begin r).fetches.flatMap (fun p => p.fetch.written) = [] := by
      simp [begin, CyclePlan.fetches, Fetch.written, Fetch.answer?]
    rw [hnil]
    exact .nil
  · rw [begin, CyclePlan.batch, Batch.begin]
    split <;> rfl

variable {hasService : Bool} {feeds : List Feed}

theorem Accounts.fetch (h : Accounts hasService feeds log c) {i : Nat} {p p' : FetchRun}
    (hp : c.fetches[i]? = some p) (hstep : p.Advances r p' r') :
    Accounts hasService feeds (log ++ p'.fetch.written)
      { c with fetches := c.fetches.set i p' } := by
  obtain ⟨quoted, hperm, hstored, hquoted⟩ := h.written
  refine ⟨h.plan, ?_, h.ids, ⟨quoted, ?_, hstored, hquoted⟩, fun report hreport => ?_⟩
  · have hfeed : (c.fetches.map fun p => p.fetch.feed)[i]? = some p'.fetch.feed := by
      rw [List.getElem?_map, hp, hstep.feed]
      rfl
    rw [List.map_set, set_eq_self hfeed, h.fetches]
  · -- a fetch that is not finished has written nothing yet, so nothing it wrote is lost
    have hset := perm_flatMap_set (f := fun p : FetchRun => p.fetch.written) (y := p') hp
      (Fetch.written_of_unfinished hstep.unfinished)
    have hswap : (c.fetches.flatMap (fun p => p.fetch.written) ++ quoted ++ p'.fetch.written).Perm
        (c.fetches.flatMap (fun p => p.fetch.written) ++ p'.fetch.written ++ quoted) := by
      rw [List.append_assoc, List.append_assoc]
      exact List.perm_append_comm.append_left _
    exact (hperm.append_right _).trans (hswap.trans (hset.symm.append_right _))
  · -- there is no report while something goes on
    exact absurd hstep.unfinished
      ((h.report report hreport).ne_none.1 p (List.mem_of_getElem? hp))

theorem Accounts.batch (h : Accounts hasService feeds log c) {ws : List Write} {b' : BatchRun}
    (hstep : c.batch.Advances r ws b' r') :
    Accounts hasService feeds (log ++ ws) { c with batch := b' } := by
  obtain ⟨quoted, hperm, hstored, hquoted⟩ := h.written
  refine ⟨h.plan, h.fetches, hstep.ids.trans h.ids, ⟨quoted ++ ws, ?_, ?_, fun w hw => ?_⟩,
    fun report hreport => ?_⟩
  · rw [← List.append_assoc]
    exact hperm.append_right ws
  · -- a batch that is not finished has written nothing yet
    rw [Batch.stored_of_unfinished hstep.unfinished] at hstored
    rw [List.length_append, hstored, Nat.zero_add, hstep.stored]
  · rcases List.mem_append.mp hw with hw | hw
    · exact hquoted w hw
    · exact h.ids ▸ hstep.feed w hw
  · exact absurd hstep.unfinished (h.report report hreport).ne_none.2

theorem Accounts.conclude (h : Accounts hasService feeds log c) (r : Relay σ) :
    Accounts hasService feeds log (c.conclude r).1 := by
  rw [CycleRun.conclude]
  split
  · next fetched stored hfetched hstored =>
    refine ⟨h.plan, h.fetches, h.ids, h.written, fun report hreport => ?_⟩
    exact ⟨fetched, stored, hfetched, hstored, (Option.some.inj hreport).symm⟩
  · exact h

/-- **Every run of a cycle keeps to its account.** -/
theorem Course.accounts (h : Course owner may r₀ log c r) :
    Accounts r₀.providers.quotes.isSome r₀.cache.tracked log c := by
  induction h with
  | begin => exact accounts_begin r₀
  | others _ _ ih => exact ih
  | fetch _ hp hstep ih => exact ih.fetch hp (FetchRun.advances_of_step? hstep)
  | batch _ hstep ih => exact ih.batch (BatchRun.advances_of_step? hstep)
  | conclude _ _ ih => exact ih.conclude _
  | turn _ _ ih => exact ⟨ih.plan, ih.fetches, ih.ids, ih.written, ih.report⟩

/-- Each fetch has written its feed once, or nothing. -/
theorem map_feed_written (fetches : List FetchRun) :
    ((fetches.flatMap fun p => p.fetch.written).map Write.feed).Sublist
      (fetches.map fun p => p.fetch.feed) := by
  induction fetches with
  | nil => exact .slnil
  | cons p fetches ih =>
    rw [List.flatMap_cons, List.map_append, List.map_cons]
    exact p.fetch.map_feed_written.append ih

/-- **A cycle writes what it set out to fetch**: aggregators that are tracked, and quotes of tracked
ids, which it writes as quotes of no chain. -/
theorem Accounts.feed_of_mem (h : Accounts hasService feeds log c) {w : Write} (hw : w ∈ log) :
    (w.feed ∈ feeds ∧ w.feed.source = .chainlink) ∨
      (hasService = true ∧ ∃ f ∈ feeds, f.source = .pyth ∧
        w.feed = ⟨.offChain, .pyth, f.identifier⟩) := by
  obtain ⟨quoted, hperm, -, hquoted⟩ := h.written
  rcases List.mem_append.mp (hperm.mem_iff.mp hw) with hw | hw
  · have hmem : w.feed ∈ c.plan.aggregators :=
      h.fetches ▸ (map_feed_written c.fetches).subset (List.mem_map_of_mem hw)
    rw [h.plan, CyclePlan.aggregators_ofFeeds] at hmem
    obtain ⟨hfeed, hsource⟩ := List.mem_filter.mp hmem
    exact .inl ⟨hfeed, of_decide_eq_true hsource⟩
  · obtain ⟨id, hid, hfeed⟩ := hquoted w hw
    rw [h.plan, CyclePlan.ids_ofFeeds] at hid
    obtain ⟨f, hf, rfl⟩ := List.mem_map.mp hid
    obtain ⟨hf, hsource⟩ := List.mem_filter.mp hf
    obtain ⟨hsource, hservice⟩ := Bool.and_eq_true_iff.mp hsource
    exact .inr ⟨hservice, f, hf, of_decide_eq_true hsource, hfeed⟩

/-- Where the feeds of the quote service are tracked as quotes of no chain, what is written was
tracked. -/
theorem Accounts.feed_mem_of_offChain (h : Accounts hasService feeds log c)
    (hoffChain : ∀ f ∈ feeds, f.source = .pyth → f.network = .offChain) {w : Write}
    (hw : w ∈ log) : w.feed ∈ feeds := by
  rcases h.feed_of_mem hw with ⟨htracked, -⟩ | ⟨-, f, hf, hsource, hfeed⟩
  · exact htracked
  · rw [hfeed, ← hsource, ← hoffChain f hf hsource]
    exact hf

/-! ### The quotes of a reply -/

/-- The ids that a cycle asks for. -/
def ids (r : Relay σ) : List String := (begin r).plan.ids

/-- Others leave the world outside and the symbols of quotes as they are. -/
def KeepsQuotes (may : Relay σ → Relay σ → Prop) : Prop :=
  ∀ r r', may r r' → r'.providers = r.providers ∧ r'.quoteSymbols = r.quoteSymbols

/-- What a cycle has written for the quote service are the writes of its batch. -/
theorem Course.stands_batch (h : Course owner may r₀ log c r) (hmay : KeepsQuotes may) :
    (r.providers = r₀.providers ∧ r.quoteSymbols = r₀.quoteSymbols) ∧
      ∃ deeds, BatchRun.Stands r₀.providers r₀.quoteSymbols (ids r₀) deeds c.batch ∧
        (log.filter fun w => w.feed.source = .pyth).map Write.call =
          deeds.filterMap Deed.call? := by
  induction h with
  | begin => exact ⟨⟨rfl, rfl⟩, [], BatchRun.stands_begin .., rfl⟩
  | others _ hother ih =>
    obtain ⟨hproviders, hsymbols⟩ := hmay _ _ hother
    exact ⟨⟨hproviders.trans ih.1.1, hsymbols.trans ih.1.2⟩, ih.2⟩
  | @fetch log c r r' i p p' _ _ hstep ih =>
    obtain ⟨⟨hproviders, hsymbols⟩, deeds, hstands, hwrites⟩ := ih
    have hadvances := FetchRun.advances_of_step? hstep
    refine ⟨⟨hadvances.providers.trans hproviders, hadvances.quoteSymbols.trans hsymbols⟩,
      deeds, hstands, ?_⟩
    have hnone : p'.fetch.written.filter (fun w => w.feed.source = .pyth) = [] := by
      refine List.filter_eq_nil_iff.mpr fun w hw => ?_
      rw [p'.fetch.source_of_mem_written hw]
      decide
    rw [List.filter_append, hnone, List.append_nil, hwrites]
  | @batch log c r r' b' _ hstep ih =>
    obtain ⟨⟨hproviders, hsymbols⟩, deeds, hstands, hwrites⟩ := ih
    obtain ⟨hstands', hsteady⟩ := hstands.step hproviders hsymbols hstep
    refine ⟨⟨hsteady.providers.trans hproviders, hsteady.quoteSymbols.trans hsymbols⟩,
      _, hstands', ?_⟩
    have hquotes : (c.batch.written r).filter (fun w => w.feed.source = .pyth) =
        c.batch.written r := by
      refine List.filter_eq_self.mpr fun w hw => ?_
      obtain ⟨id, -, hfeed⟩ := (BatchRun.advances_of_step? hstep).feed w hw
      rw [hfeed]
      rfl
    have hasked : (c.batch.heard r).filterMap Deed.call? = [] :=
      List.filterMap_eq_nil_iff.mpr fun _ => BatchRun.call?_of_mem_heard
    rw [List.filter_append, hquotes, List.map_append, hwrites, List.filterMap_append,
      List.filterMap_append, hasked, filterMap_call?_write, List.nil_append]
  | conclude _ _ ih =>
    rw [CycleRun.conclude]
    split <;> exact ih
  | turn _ _ ih => exact ih

/-- **The quotes that a cycle writes are those of one reply** to the ids that it asks for. -/
theorem Course.quotes_of_reply (h : Course owner may r₀ log c r) (hmay : KeepsQuotes may) :
    (log.filter fun w => w.feed.source = .pyth) = [] ∨
      ∃ quotes now, r₀.providers.Replies (ids r₀) (.ok quotes) ∧
        (log.filter fun w => w.feed.source = .pyth) =
          Batch.writes (ids r₀) r₀.quoteSymbols now quotes := by
  obtain ⟨-, deeds, hstands, hwrites⟩ := h.stands_batch hmay
  have hnone (hdeeds : deeds.filterMap Deed.call? = []) :
      (log.filter fun w => w.feed.source = .pyth) = [] :=
    List.map_eq_nil_iff.mp (hwrites.trans hdeeds)
  generalize c.batch = b at hstands
  cases hstands with
  | @stored quotes now wait hreply =>
    have hcall : Function.Injective Write.call := by
      rintro ⟨f, record⟩ ⟨f', record'⟩ heq
      obtain ⟨rfl, rfl⟩ := CacheCall.put.inj heq
      rfl
    refine .inr ⟨quotes, now, hreply, List.map_injective_iff.mpr hcall (hwrites.trans ?_)⟩
    exact filterMap_call?_write _
  | _ => exact .inl (hnone rfl)

/-- **A cycle writes no quote twice** where the quote service quotes no id twice that it is asked
for. -/
theorem Course.nodup_quotes (h : Course owner may r₀ log c r) (hmay : KeepsQuotes may)
    (hreplies : ∀ quotes, r₀.providers.Replies (ids r₀) (.ok quotes) →
      ((quotes.map Quote.identifier).filter fun id => id ∈ ids r₀).Nodup) :
    ((log.map Write.feed).filter fun f => f.source = .pyth).Nodup := by
  have hfeeds : (log.map Write.feed).filter (fun f => f.source = .pyth) =
      (log.filter fun w => w.feed.source = .pyth).map Write.feed := by
    rw [List.filter_map]
    rfl
  rw [hfeeds]
  rcases h.quotes_of_reply hmay with hnone | ⟨quotes, now, hreply, hwritten⟩
  · rw [hnone]
    exact List.nodup_nil
  · rw [hwritten]
    exact Batch.nodup_writes_iff.mpr (hreplies quotes hreply)

/-! ### What is counted -/

/-- The fetches that have succeeded have written one record each. -/
theorem length_written {fetches : List FetchRun} {fetched : List (Except Fault Record)}
    (h : fetches.map (fun p => p.fetch.answer?) = fetched.map some) :
    (fetches.flatMap fun p => p.fetch.written).length =
      (fetched.filter fun a => a.toOption.isSome).length := by
  induction fetches generalizing fetched with
  | nil =>
    cases fetched with
    | nil => rfl
    | cons a fetched => cases h
  | cons p fetches ih =>
    cases fetched with
    | nil => cases h
    | cons a fetched =>
      obtain ⟨ha, hrest⟩ := List.cons.inj h
      have ha : p.fetch.answer? = some a := ha
      rw [List.flatMap_cons, List.length_append, ih hrest, Fetch.written, ha]
      cases a with
      | error fault => exact Nat.zero_add _
      | ok record => exact Nat.add_comm _ _

/-- A report counts every write, and whatever else the cycle set out to fetch as failed. -/
theorem Accounts.report_eq (h : Accounts hasService feeds log c) {report : CycleReport}
    (hreport : c.report = some report) : ∃ read quoted : List Write,
      log.Perm (read ++ quoted) ∧
      (read.map Write.feed).Sublist c.plan.aggregators ∧
      (∀ w ∈ quoted, ∃ id ∈ c.plan.ids, w.feed = ⟨.offChain, .pyth, id⟩) ∧
      report = ⟨read.length + quoted.length, (c.plan.aggregators.length - read.length) +
        (c.plan.ids.length - quoted.length), c.plan.skipped⟩ := by
  obtain ⟨quoted, hperm, hlength, hquoted⟩ := h.written
  obtain ⟨fetched, stored, hfetched, hstored, rfl⟩ := h.report report hreport
  have hanswers := mapM_eq_some_iff.mp hfetched
  have hread := length_written hanswers
  have hfetches : c.plan.aggregators.length = fetched.length := by
    have hlengths := congrArg List.length hanswers
    rw [List.length_map, List.length_map] at hlengths
    rw [← h.fetches, List.length_map, hlengths]
  have hunread : fetched.length = (fetched.filter fun a => a.toOption.isSome).length +
      (fetched.filter fun a => a.toOption.isNone).length := by
    rw [List.length_eq_length_filter_add fun a : Except Fault Record => a.toOption.isSome]
    simp only [Option.not_isSome]
  refine ⟨c.fetches.flatMap fun p => p.fetch.written, quoted, hperm,
    h.fetches ▸ map_feed_written c.fetches, hquoted, ?_⟩
  -- the batch counts what it has stored, and a batch that failed has stored nothing
  rw [Batch.stored, hstored] at hlength
  cases stored with
  | ok k =>
    obtain rfl : k = quoted.length := hlength.symm
    rw [CycleReport.ofAnswers, ← hread]
    congr 1
    omega
  | error fault =>
    obtain rfl : quoted = [] := List.length_eq_zero_iff.mp hlength
    rw [CycleReport.ofAnswers, ← hread]
    congr 1
    simp only [List.length_nil, Nat.sub_zero]
    omega

/-- Quotes of different ids are no more than the ids asked for. -/
theorem length_quoted_le {ids : List String} {quoted : List Write}
    (hnodup : (quoted.map Write.feed).Nodup)
    (hquoted : ∀ w ∈ quoted, ∃ id ∈ ids, w.feed = ⟨.offChain, .pyth, id⟩) :
    quoted.length ≤ ids.length := by
  have hids : quoted.map Write.feed ⊆ ids.map fun id => ⟨.offChain, .pyth, id⟩ := by
    intro f hf
    obtain ⟨w, hw, rfl⟩ := List.mem_map.mp hf
    obtain ⟨id, hid, hfeed⟩ := hquoted w hw
    exact List.mem_map.mpr ⟨id, hid, hfeed.symm⟩
  have hlength := (List.subperm_of_subset hnodup hids).length_le
  rwa [List.length_map, List.length_map] at hlength

/-- Where no quote is written twice, nothing is. -/
theorem Accounts.nodup (h : Accounts hasService feeds log c) (hfeeds : feeds.Nodup)
    {read quoted : List Write} (hperm : log.Perm (read ++ quoted))
    (hread : (read.map Write.feed).Sublist c.plan.aggregators)
    (hquoted : ∀ w ∈ quoted, ∃ id ∈ c.plan.ids, w.feed = ⟨.offChain, .pyth, id⟩)
    (hquotes : ((log.map Write.feed).filter fun f => f.source = .pyth).Nodup) :
    (log.map Write.feed).Nodup ∧ (quoted.map Write.feed).Nodup := by
  -- aggregators and quotes have different sources, so no feed is among both
  rw [h.plan, CyclePlan.aggregators_ofFeeds] at hread
  have hreads (f : Feed) (hf : f ∈ read.map Write.feed) : f.source = .chainlink :=
    of_decide_eq_true (List.mem_filter.mp (hread.subset hf)).2
  have hpyth (f : Feed) (hf : f ∈ quoted.map Write.feed) : f.source = .pyth := by
    obtain ⟨w, hw, rfl⟩ := List.mem_map.mp hf
    obtain ⟨id, -, hfeed⟩ := hquoted w hw
    rw [hfeed]
  have hlog : (log.map Write.feed).Perm (read.map Write.feed ++ quoted.map Write.feed) := by
    rw [← List.map_append]
    exact hperm.map Write.feed
  have hparts : (read.map Write.feed ++ quoted.map Write.feed).filter (fun f => f.source = .pyth) =
      quoted.map Write.feed := by
    rw [List.filter_append, List.filter_eq_nil_iff.mpr fun f hf => by simp [hreads f hf],
      List.filter_eq_self.mpr fun f hf => decide_eq_true (hpyth f hf), List.nil_append]
  have hnodup : (quoted.map Write.feed).Nodup := by
    rw [← hparts]
    exact (hlog.filter _).nodup_iff.mp hquotes
  refine ⟨hlog.nodup_iff.mpr (List.nodup_append.mpr ⟨?_, hnodup, fun f hf g hg heq => ?_⟩), hnodup⟩
  · exact hread.nodup (hfeeds.filter _)
  · have hsource := hreads f hf
    rw [heq, hpyth g hg] at hsource
    cases hsource

theorem Accounts.isFetchable (h : Accounts hasService feeds log c) {w : Write} (hw : w ∈ log) :
    w.feed.isFetchable hasService = true := by
  rcases h.feed_of_mem hw with ⟨-, hsource⟩ | ⟨rfl, f, -, -, hfeed⟩
  · rw [Feed.isFetchable, hsource]
  · rw [hfeed]
    rfl

/-- **A report counts the feeds that were written.** In a cycle that writes no quote twice, the
feeds that succeeded are those written, and together with those that failed they are all that
somebody can fetch. (`Course.nodup_quotes` says when no quote is written twice.) Quotes are written
as quotes of no chain; so where the feeds of the quote service are tracked as such, whatever is
written is tracked, and the feeds that failed are those that were not written. -/
theorem report_counts {sizes : SizeRegistry} {cap : UInt64} {policy : EvictionPolicy}
    {calls : List CacheCall} (hcache : r₀.cache = (PriceCache.fresh sizes cap policy).run calls)
    (hcourse : Course owner may r₀ log c r) {report : CycleReport}
    (hreport : c.report = some report)
    (hquotes : ((log.map Write.feed).filter fun f => f.source = .pyth).Nodup) :
    let fetchable := r₀.cache.tracked.filter (Feed.isFetchable r₀.providers.quotes.isSome)
    report.succeeded + report.failed + report.skipped = r₀.cache.tracked.length ∧
      (log.map Write.feed).Nodup ∧ report.succeeded = log.length ∧
      report.succeeded + report.failed = fetchable.length ∧
      ((∀ w ∈ log, w.feed ∈ r₀.cache.tracked) →
        report.failed = (fetchable.filter fun f => f ∉ log.map Write.feed).length) ∧
      ((∀ f ∈ r₀.cache.tracked, f.source = .pyth → f.network = .offChain) →
        ∀ w ∈ log, w.feed ∈ r₀.cache.tracked) := by
  intro fetchable
  have haccounts := hcourse.accounts
  have hfiled : r₀.cache.Filed := hcache ▸ (PriceCache.filed_fresh sizes cap policy).run calls
  obtain ⟨read, quoted, hperm, hread, hquoted, hcounts⟩ := haccounts.report_eq hreport
  obtain ⟨hnodup, hdistinct⟩ :=
    haccounts.nodup hfiled.nodup_tracked hperm hread hquoted hquotes
  have hlength : fetchable.length = c.plan.aggregators.length + c.plan.ids.length := by
    rw [haccounts.plan]
    exact CyclePlan.length_fetchable ..
  have hall : r₀.cache.tracked.length =
      c.plan.aggregators.length + c.plan.ids.length + c.plan.skipped := by
    rw [haccounts.plan]
    exact CyclePlan.length_ofFeeds ..
  have hsucceeded : report.succeeded = log.length := by
    rw [hcounts, hperm.length_eq, List.length_append]
  have hfailed : report.succeeded + report.failed = fetchable.length := by
    have hstored := length_quoted_le hdistinct hquoted
    have hreads := hread.length_le
    rw [List.length_map] at hreads
    rw [hlength, hcounts]
    dsimp only
    omega
  have hskipped : report.skipped = c.plan.skipped := by rw [hcounts]
  refine ⟨by omega, hnodup, hsucceeded, hfailed, fun htracked => ?_, fun hoffChain w hw => ?_⟩
  · have hsubset : log.map Write.feed ⊆ fetchable := by
      intro f hf
      obtain ⟨w, hw, rfl⟩ := List.mem_map.mp hf
      exact List.mem_filter.mpr ⟨htracked w hw, haccounts.isFetchable hw⟩
    have hleft : (fetchable.filter fun f => f ∉ log.map Write.feed).length +
        (log.map Write.feed).length = fetchable.length :=
      length_filter_notMem (hfiled.nodup_tracked.filter _) hnodup hsubset
    rw [List.length_map] at hleft
    omega
  · exact haccounts.feed_mem_of_offChain hoffChain hw

/-- A relay that tracks some feeds and has a quote service with one price. -/
def quoting (feeds : List Feed) : Relay Unit where
  providers := {
    roundTrip := fun _ _ outside => (⟨0, false⟩, outside)
    readRound := fun _ _ outside => (⟨0, .error (.remote "no contract")⟩, outside)
    readDone := fun outside => outside
    quotes := some fun _ outside => (⟨0, .ok [⟨"btc", 1, 0, 0, 0, 0, none, none⟩]⟩, outside) }
  outside := ()
  cache := (PriceCache.fresh {} 1000 .leastRecentlyWritten).run (feeds.map .addFeed)
  limiter := .ofCount 1

/-- Of two ids one is quoted. -/
theorem report_counts_of_two :
    let r₀ := quoting [⟨0, .pyth, "btc"⟩, ⟨0, .pyth, "eth"⟩]
    ∃ log c r, Course 0 (fun _ _ => False) r₀ log c r ∧ c.report = some ⟨1, 1, 0⟩ ∧
      log.map Write.feed = [⟨0, .pyth, "btc"⟩] ∧
      1 + 1 = (r₀.cache.tracked.filter (Feed.isFetchable true)).length := by
  intro r₀
  have hbegun : Course 0 (fun _ _ => False) r₀ [] (begin r₀) r₀ := .begin
  have hasked := hbegun.batch rfl
  have hheard := hasked.batch rfl
  have hdone := hheard.conclude rfl
  have hcache : r₀.cache = (PriceCache.fresh {} 1000 .leastRecentlyWritten).run
      [.addFeed ⟨0, .pyth, "btc"⟩, .addFeed ⟨0, .pyth, "eth"⟩] := rfl
  have hquotes := hdone.nodup_quotes (fun _ _ hnever => hnever.elim) fun quotes hreply => by
    obtain ⟨service, outside, hservice, hvalue⟩ := hreply
    obtain rfl := Option.some.inj hservice
    obtain rfl := Except.ok.inj hvalue
    decide
  obtain ⟨-, -, -, hcounts, -⟩ :=
    report_counts hcache hdone (rfl : _ = some (⟨1, 1, 0⟩ : CycleReport)) hquotes
  exact ⟨_, _, _, hdone, rfl, rfl, hcounts⟩

/-- A feed that is tracked on a chain counts as fetched, though its quote is written as one of no
chain and nothing is written for it. -/
theorem counted_off_chain :
    let r₀ := quoting [⟨5, .pyth, "btc"⟩]
    ∃ log c r, Course 0 (fun _ _ => False) r₀ log c r ∧ c.report = some ⟨1, 0, 0⟩ ∧
      r₀.providers.quotes.isSome ∧ r₀.cache.tracked = [⟨5, .pyth, "btc"⟩] ∧
      ∀ w ∈ log, w.feed ≠ ⟨5, .pyth, "btc"⟩ := by
  intro r₀
  have hbegun : Course 0 (fun _ _ => False) r₀ [] (begin r₀) r₀ := .begin
  have hasked := hbegun.batch rfl
  have hheard := hasked.batch rfl
  exact ⟨_, _, _, hheard.conclude rfl, rfl, rfl, rfl, by decide⟩

end CycleRun

/-! ### What is tracked -/

/-- The cache is used, and no feed is tracked that was not. -/
def Relay.UsesCache (r r' : Relay σ) : Prop :=
  ∃ calls, r'.cache = r.cache.run calls ∧
    ∀ call ∈ calls, ∀ f, CacheCall.Names f call → f ∈ r.cache.tracked

namespace CycleRun

variable {owner : Nat} {r₀ r : Relay σ} {log : List Write} {c : CycleRun}

theorem mem_tracked_writes {cache : PriceCache} (h : cache.Filed) (ws : List Write) (f : Feed) :
    f ∈ (cache.run (ws.map Write.call)).tracked ↔ f ∈ cache.tracked ∨ ∃ w ∈ ws, w.feed = f := by
  rw [h.mem_tracked_run]
  constructor
  · rintro (hf | ⟨call, hcall, hnames⟩)
    · exact .inl hf
    · obtain ⟨w, hw, rfl⟩ := List.mem_map.mp hcall
      exact .inr ⟨w, hw, hnames⟩
  · rintro (hf | ⟨w, hw, hfeed⟩)
    · exact .inl hf
    · exact .inr ⟨w.call, List.mem_map_of_mem hw, hfeed⟩

/-- What a cycle writes is tracked from then on, and nothing else is. -/
theorem Course.mem_tracked (h : Course owner Relay.UsesCache r₀ log c r)
    (hfiled : r₀.cache.Filed) : r.cache.Filed ∧
      ∀ f, f ∈ r.cache.tracked ↔ f ∈ r₀.cache.tracked ∨ ∃ w ∈ log, w.feed = f := by
  -- a fetch and a batch add to what is tracked in the same way
  have hwrites {log ws : List Write} {cache cache' : PriceCache}
      (hcache : cache' = cache.run (ws.map Write.call))
      (ih : cache.Filed ∧
        ∀ f, f ∈ cache.tracked ↔ f ∈ r₀.cache.tracked ∨ ∃ w ∈ log, w.feed = f) :
      cache'.Filed ∧
        ∀ f, f ∈ cache'.tracked ↔ f ∈ r₀.cache.tracked ∨ ∃ w ∈ log ++ ws, w.feed = f := by
    refine ⟨hcache ▸ ih.1.run _, fun f => ?_⟩
    rw [hcache, mem_tracked_writes ih.1, ih.2, or_assoc]
    simp only [List.mem_append, or_and_right, exists_or]
  induction h with
  | begin => exact ⟨hfiled, fun f => by simp⟩
  | others _ hmay ih =>
    obtain ⟨calls, hcache, hcalls⟩ := hmay
    refine ⟨hcache ▸ ih.1.run calls, fun f => ?_⟩
    rw [hcache, ih.1.mem_tracked_run, ← ih.2]
    exact or_iff_left_of_imp fun ⟨call, hcall, hnames⟩ => hcalls call hcall f hnames
  | fetch _ _ hstep ih => exact hwrites (FetchRun.advances_of_step? hstep).cache ih
  | batch _ hstep ih => exact hwrites (BatchRun.advances_of_step? hstep).cache ih
  | conclude _ _ ih => rwa [cache_conclude]
  | turn _ _ ih => exact ih

/-- **What a cycle writes and tracks.** It writes aggregators that were tracked at its start, and
quotes of ids that were tracked for the quote service, as quotes of no chain. Beside those that were
tracked it tracks what it has written; where the feeds of the quote service are tracked as quotes of
no chain, that is nothing new. -/
theorem writes_and_tracks {sizes : SizeRegistry} {cap : UInt64} {policy : EvictionPolicy}
    {calls : List CacheCall} (hcache : r₀.cache = (PriceCache.fresh sizes cap policy).run calls)
    (hcourse : Course owner Relay.UsesCache r₀ log c r) :
    (∀ w ∈ log, (w.feed ∈ r₀.cache.tracked ∧ w.feed.source = .chainlink) ∨
      (r₀.providers.quotes.isSome = true ∧ ∃ f ∈ r₀.cache.tracked, f.source = .pyth ∧
        w.feed = ⟨.offChain, .pyth, f.identifier⟩)) ∧
    (∀ f, f ∈ r.cache.tracked ↔ f ∈ r₀.cache.tracked ∨ ∃ w ∈ log, w.feed = f) ∧
    ((∀ f ∈ r₀.cache.tracked, f.source = .pyth → f.network = .offChain) →
      (∀ w ∈ log, w.feed ∈ r₀.cache.tracked) ∧ r.cache.tracked = r₀.cache.tracked) := by
  have hfiled : r₀.cache.Filed := hcache ▸ (PriceCache.filed_fresh sizes cap policy).run calls
  have haccounts := hcourse.accounts
  obtain ⟨hfiled', htracked⟩ := hcourse.mem_tracked hfiled
  refine ⟨fun w hw => haccounts.feed_of_mem hw, htracked, fun hoffChain => ?_⟩
  have hwritten := fun w hw => haccounts.feed_mem_of_offChain hoffChain (w := w) hw
  refine ⟨hwritten, hfiled'.tracked_eq hfiled fun f => ?_⟩
  rw [htracked]
  exact or_iff_left_of_imp fun ⟨w, hw, hfeed⟩ => hfeed ▸ hwritten w hw

/-- Nothing new is tracked where the quote is tracked as one of no chain. -/
theorem writes_and_tracks_off_chain :
    let r₀ := quoting [⟨0, .pyth, "btc"⟩]
    ∃ log c r, Course 0 Relay.UsesCache r₀ log c r ∧ c.report = some ⟨1, 0, 0⟩ ∧
      log.map Write.feed = [⟨0, .pyth, "btc"⟩] ∧ r.cache.tracked = [⟨0, .pyth, "btc"⟩] := by
  intro r₀
  have hbegun : Course 0 Relay.UsesCache r₀ [] (begin r₀) r₀ := .begin
  have hasked := hbegun.batch rfl
  have hheard := hasked.batch rfl
  have hdone := hheard.conclude rfl
  have hcache : r₀.cache = (PriceCache.fresh {} 1000 .leastRecentlyWritten).run
      [.addFeed ⟨0, .pyth, "btc"⟩] := rfl
  obtain ⟨-, -, hsame⟩ := writes_and_tracks hcache hdone
  exact ⟨_, _, _, hdone, rfl, rfl, (hsame (by decide)).2⟩

/-- A quote that is tracked on a chain gets another feed tracked. -/
theorem tracks_another :
    let r₀ := quoting [⟨5, .pyth, "btc"⟩]
    ∃ log c r, Course 0 Relay.UsesCache r₀ log c r ∧ c.report.isSome ∧
      r₀.cache.tracked = [⟨5, .pyth, "btc"⟩] ∧ log.map Write.feed = [⟨0, .pyth, "btc"⟩] ∧
      ⟨0, .pyth, "btc"⟩ ∈ r.cache.tracked := by
  intro r₀
  have hbegun : Course 0 Relay.UsesCache r₀ [] (begin r₀) r₀ := .begin
  have hasked := hbegun.batch rfl
  have hheard := hasked.batch rfl
  have hdone := hheard.conclude rfl
  have hfiled : r₀.cache.Filed := (PriceCache.filed_fresh {} 1000 _).run _
  refine ⟨_, _, _, hdone, rfl, rfl, rfl, ?_⟩
  exact ((hdone.mem_tracked hfiled).2 _).mpr (.inr ⟨_, List.mem_singleton_self _, rfl⟩)

end CycleRun

end PriceRelay
