import PriceRelay.Proofs.Cache.Counts
import PriceRelay.Proofs.Relay.Deeds
/-!
# Fetches are all or nothing

Any number of fetches and batches run side by side, alone or as parts of cycles, and others call the
cache and publish endpoints in between. Whatever they do, each piece of work keeps to itself: its
deeds are told by its own answer, and a record that it has written is one of the feed it is filed
for.

* `Workload` is work under way, `Workload.Course` are its runs, with what was done by whom,
* `Workload.Course.pollFetch`, `pollBatch` and `pollCycle` say that looking at the work is such a
  run,
* `Workload.Sound` is the invariant, `Workload.Course.sound` that every run keeps it,
* `Workload.Accounts` says what was done, `Workload.all_or_nothing` that it follows.
-/

namespace PriceRelay

variable {σ : Type}

/-! ### Work under way -/

/-- Work under way. -/
structure Workload (σ : Type) where
  /-- the relay -/
  relay : Relay σ
  /-- the fetches that were begun -/
  fetches : List FetchRun := []
  /-- the batches that were begun -/
  batches : List BatchRun := []

/-- Nothing was done yet: the cache is fresh, and no endpoint was chosen. -/
structure Relay.Untouched (r : Relay σ) : Prop where
  /-- the cache is fresh -/
  cache : ∃ sizes cap policy, r.cache = .fresh sizes cap policy
  /-- no endpoint was chosen -/
  selector : ∃ listed, r.selector = .unsettled listed

/-- Others have called the cache, and may have published an endpoint. The clock, the limiter and
the world outside may have changed as well. -/
structure Relay.Meanwhile (calls : List CacheCall) (r r' : Relay σ) : Prop where
  /-- the world outside answers as it did -/
  providers : r'.providers = r.providers
  /-- quotes have the symbols they had -/
  quoteSymbols : r'.quoteSymbols = r.quoteSymbols
  /-- the cache was called -/
  cache : r'.cache = r.cache.run calls
  /-- an endpoint was published, or none -/
  selector : r'.selector = r.selector ∨
    ∃ n url latency now, r'.selector = (r.selector.publish n url latency now).2

namespace Workload

section Course

variable (r₀ : Relay σ)

/-- The runs of some work that begin at `r₀`, with what was done by whom. -/
inductive Course : List (Party × Deed) → Workload σ → Prop
  /-- nothing was begun yet -/
  | start : Course [] ⟨r₀, [], []⟩
  /-- others go on -/
  | others {log w calls r} : Course log w → w.relay.Meanwhile calls r →
      Course (log ++ (calls.map .call).map (Prod.mk .other)) { w with relay := r }
  /-- a fetch is begun -/
  | beginFetch {log w} (n : NetworkId) (address : String) : Course log w →
      Course log
        { w with fetches := w.fetches ++ [{ fetch := { network := n, address := address } }] }
  /-- a batch is begun -/
  | beginBatch {log w} (ids : List String) : Course log w →
      Course log { w with
        batches := w.batches ++ [{ batch := .begin w.relay.providers.quotes.isSome ids }] }
  /-- a fetch goes on -/
  | fetch {log w owner i p p' r} : Course log w → w.fetches[i]? = some p →
      p.step? owner w.relay = some (p', r) →
      Course
        (log ++ (p.heard w.relay ++ p'.fetch.written.map Deed.write).map (Prod.mk (.fetch i)))
        { w with relay := r, fetches := w.fetches.set i p' }
  /-- a batch goes on -/
  | batch {log w owner j b b' r} : Course log w → w.batches[j]? = some b →
      b.step? owner w.relay = some (b', r) →
      Course
        (log ++ (b.heard w.relay ++ (b.written w.relay).map Deed.write).map (Prod.mk (.batch j)))
        { w with relay := r, batches := w.batches.set j b' }
  /-- where work goes on side by side, the cache may be called by two parties the other way round -/
  | swap {before later d d' w} : Course (before ++ d :: d' :: later) w → d.1 ≠ d'.1 →
      Course (before ++ d' :: d :: later)
        { w with relay := { w.relay with
          cache := r₀.cache.run (callsOf (before ++ d' :: d :: later)) } }

end Course

variable {r₀ r : Relay σ} {log : List (Party × Deed)} {w : Workload σ}

/-! ### Looking at work -/

theorem Course.pollFetchFor {i : Nat} {p : FetchRun} (h : Course r₀ log w)
    (hp : w.fetches[i]? = some p) (owner fuel : Nat) :
    ∃ more, Course r₀ (log ++ more)
      { w with
        relay := (p.pollFor owner fuel w.relay).2
        fetches := w.fetches.set i (p.pollFor owner fuel w.relay).1 } := by
  induction fuel generalizing log w p with
  | zero =>
    rw [FetchRun.pollFor, set_eq_self hp]
    exact ⟨[], by rwa [List.append_nil]⟩
  | succ fuel ih =>
    rw [FetchRun.pollFor]
    split
    · rw [set_eq_self hp]
      exact ⟨[], by rwa [List.append_nil]⟩
    · next p' r' hstep =>
      have hp' : (w.fetches.set i p')[i]? = some p' :=
        List.getElem?_set_self (List.getElem?_eq_some_iff.mp hp).1
      obtain ⟨more, hmore⟩ := ih (h.fetch hp hstep) hp'
      rw [List.append_assoc, List.set_set] at hmore
      exact ⟨_, hmore⟩

/-- To look at a fetch is to let it go on. -/
theorem Course.pollFetch {i : Nat} {p : FetchRun} (h : Course r₀ log w)
    (hp : w.fetches[i]? = some p) (owner : Nat) :
    ∃ more, Course r₀ (log ++ more)
      { w with
        relay := (p.poll owner w.relay).2
        fetches := w.fetches.set i (p.poll owner w.relay).1 } :=
  h.pollFetchFor hp owner Relay.patience

/-- To look at a batch is to let it go on. -/
theorem Course.pollBatch {j : Nat} {b : BatchRun} (h : Course r₀ log w)
    (hb : w.batches[j]? = some b) (owner : Nat) :
    ∃ more, Course r₀ (log ++ more)
      { w with
        relay := (b.poll owner w.relay).2
        batches := w.batches.set j (b.poll owner w.relay).1 } := by
  suffices hfold : ∀ turns : List Nat, ∃ more, Course r₀ (log ++ more)
      { w with
        relay := (turns.foldl (fun s _ => (s.1.step? owner s.2).getD s) (b, w.relay)).2
        batches := w.batches.set j
          (turns.foldl (fun s _ => (s.1.step? owner s.2).getD s) (b, w.relay)).1 } from hfold _
  intro turns
  induction turns generalizing log w b with
  | nil =>
    rw [List.foldl_nil, set_eq_self hb]
    exact ⟨[], by rwa [List.append_nil]⟩
  | cons turn turns ih =>
    rw [List.foldl_cons]
    cases hstep : b.step? owner w.relay with
    | none => exact ih h hb
    | some s =>
      obtain ⟨b', r'⟩ := s
      have hb' : (w.batches.set j b')[j]? = some b' :=
        List.getElem?_set_self (List.getElem?_eq_some_iff.mp hb).1
      obtain ⟨more, hmore⟩ := ih (h.batch hb hstep) hb'
      rw [List.append_assoc, List.set_set] at hmore
      exact ⟨_, hmore⟩

/-- To look at some fetches that stand side by side is to let each of them go on. -/
theorem Course.pollAll {before ps after : List FetchRun} (h : Course r₀ log w)
    (hw : w.fetches = before ++ (ps ++ after)) (owner : Nat) :
    ∃ more, Course r₀ (log ++ more)
      { w with
        relay := (FetchRun.pollAll owner ps w.relay).2
        fetches := before ++ ((FetchRun.pollAll owner ps w.relay).1 ++ after) } := by
  induction ps generalizing log w before with
  | nil =>
    rw [FetchRun.pollAll, ← hw]
    exact ⟨[], by rwa [List.append_nil]⟩
  | cons p ps ih =>
    have hp : w.fetches[before.length]? = some p := by
      rw [hw, List.getElem?_append_right (Nat.le_refl _), Nat.sub_self]
      rfl
    obtain ⟨first, hfirst⟩ := h.pollFetch hp owner
    rw [hw, List.set_append_right _ _ (Nat.le_refl _), Nat.sub_self, List.cons_append,
      List.set_cons_zero, List.append_cons] at hfirst
    obtain ⟨more, hmore⟩ := ih hfirst rfl
    simp only [List.append_assoc, List.singleton_append] at hmore
    exact ⟨_, hmore⟩

/-- The fetches of a cycle stand side by side among those that were begun, and its batch is one of
the batches. -/
structure Holds (w : Workload σ) (before after : List FetchRun) (j : Nat) (c : CycleRun) :
    Prop where
  /-- its fetches -/
  fetches : w.fetches = before ++ (c.fetches ++ after)
  /-- its batch -/
  batch : w.batches[j]? = some c.batch

/-- A cycle is begun by beginning its fetches and its batch. -/
theorem Course.beginCycle (h : Course r₀ log w) :
    ∃ w', Course r₀ log w' ∧ w'.relay = w.relay ∧
      w'.Holds w.fetches [] w.batches.length (CycleRun.begin w.relay) := by
  let plan : CyclePlan := .ofFeeds w.relay.providers.quotes.isSome w.relay.cache.tracked
  -- the fetches are begun one after another
  have hfetches : ∀ fs : List Feed, Course r₀ log { w with
      fetches := w.fetches ++ fs.map fun f =>
        { fetch := { network := f.network, address := f.identifier } } } := by
    intro fs
    induction fs using List.reverseRecOn with
    | nil =>
      rw [List.map_nil, List.append_nil]
      exact h
    | append_singleton fs f ih =>
      rw [List.map_append, ← List.append_assoc]
      exact ih.beginFetch f.network f.identifier
  refine ⟨_, (hfetches plan.aggregators).beginBatch plan.ids, rfl, ?_, ?_⟩
  · rw [List.append_nil]
    simp only [CycleRun.begin, CyclePlan.fetches, List.map_map]
    rfl
  · exact List.getElem?_concat_length ..

theorem Course.conclude (h : Course r₀ log w) (c : CycleRun) :
    Course r₀ log { w with relay := (c.conclude w.relay).2 } := by
  have hidle {r : Relay σ} (hr : w.relay.Meanwhile [] r) : Course r₀ log { w with relay := r } := by
    have hothers := h.others hr
    rwa [List.map_nil, List.map_nil, List.append_nil] at hothers
  rw [CycleRun.conclude]
  split
  · exact hidle ⟨rfl, rfl, rfl, .inl rfl⟩
  · exact h

/-- **To look at a cycle is to let its fetches and its batch go on.** -/
theorem Course.pollCycle {before after : List FetchRun} {j : Nat} {c : CycleRun}
    (h : Course r₀ log w) (hw : w.Holds before after j c) (owner : Nat) :
    ∃ more w', Course r₀ (log ++ more) w' ∧ w'.relay = (c.poll owner w.relay).2 ∧
      w'.Holds before after j (c.poll owner w.relay).1 := by
  have hbatch {b' : BatchRun} : (w.batches.set j b')[j]? = some b' :=
    List.getElem?_set_self (List.getElem?_eq_some_iff.mp hw.batch).1
  -- to conclude a cycle leaves its fetches and its batch as they are
  have hconclude (c : CycleRun) (r : Relay σ) :
      (c.conclude r).1.fetches = c.fetches ∧ (c.conclude r).1.batch = c.batch := by
    rw [CycleRun.conclude]
    split <;> exact ⟨rfl, rfl⟩
  rw [CycleRun.poll]
  split
  · exact ⟨[], w, by rwa [List.append_nil], rfl, hw⟩
  · split
    · obtain ⟨first, hfirst⟩ := h.pollBatch hw.batch owner
      obtain ⟨more, hmore⟩ := hfirst.pollAll hw.fetches owner
      rw [List.append_assoc] at hmore
      refine ⟨_, _, hmore.conclude _, rfl, ?_, ?_⟩
      · rw [(hconclude _ _).1]
      · rw [(hconclude _ _).2]
        exact hbatch
    · obtain ⟨first, hfirst⟩ := h.pollAll hw.fetches owner
      obtain ⟨more, hmore⟩ := hfirst.pollBatch hw.batch owner
      rw [List.append_assoc] at hmore
      refine ⟨_, _, hmore.conclude _, rfl, ?_, ?_⟩
      · rw [(hconclude _ _).1]
      · rw [(hconclude _ _).2]
        exact hbatch

/-! ### What every run keeps -/

/-- Each of some pieces of work stands where its own deeds have brought it. -/
structure Each {α : Type} (stands : List Deed → α → Prop) (works : List α)
    (done : Nat → List Deed) : Prop where
  /-- what was begun stands so -/
  begun : ∀ {i x}, works[i]? = some x → stands (done i) x
  /-- what was not begun has done nothing -/
  unbegun : ∀ {i}, works[i]? = none → done i = []

section Each

variable {α : Type} {stands : List Deed → α → Prop} {works : List α} {done done' : Nat → List Deed}

theorem Each.concat (h : Each stands works done) {x : α} (hx : stands [] x) :
    Each stands (works ++ [x]) done where
  begun {i y} hy := by
    rcases Nat.lt_trichotomy i works.length with hlt | rfl | hgt
    · rw [List.getElem?_append_left hlt] at hy
      exact h.begun hy
    · rw [List.getElem?_concat_length] at hy
      rw [h.unbegun (List.getElem?_eq_none (Nat.le_refl _)), ← Option.some.inj hy]
      exact hx
    · rw [List.getElem?_eq_none (by rw [List.length_append]; exact hgt)] at hy
      cases hy
  unbegun {i} hi := by
    rw [List.getElem?_eq_none_iff, List.length_append] at hi
    exact h.unbegun (List.getElem?_eq_none (Nat.le_of_succ_le hi))

/-- One piece of work goes on, and what it does is added to its own deeds. -/
theorem Each.set (h : Each stands works done) {i : Nat} {x y : α} (hx : works[i]? = some x)
    (hy : stands (done' i) y) (hothers : ∀ k, k ≠ i → done' k = done k) :
    Each stands (works.set i y) done' where
  begun {k z} hz := by
    by_cases hk : k = i
    · subst hk
      rw [List.getElem?_set_self (List.getElem?_eq_some_iff.mp hx).1] at hz
      exact Option.some.inj hz ▸ hy
    · rw [List.getElem?_set_ne (Ne.symm hk)] at hz
      rw [hothers k hk]
      exact h.begun hz
  unbegun {k} hk := by
    rw [List.getElem?_eq_none_iff, List.length_set, ← List.getElem?_eq_none_iff] at hk
    rw [hothers k fun heq => by rw [heq, hx] at hk; cases hk]
    exact h.unbegun hk

end Each

/-- What holds all along. -/
structure Sound (r₀ : Relay σ) (log : List (Party × Deed)) (w : Workload σ) : Prop where
  /-- the world outside answers as it did -/
  providers : w.relay.providers = r₀.providers
  /-- quotes have the symbols they had -/
  quoteSymbols : w.relay.quoteSymbols = r₀.quoteSymbols
  /-- the table of endpoints tells nothing untrue -/
  coherent : w.relay.selector.Coherent
  /-- the cache is what the calls made of it -/
  cache : w.relay.cache = r₀.cache.run (callsOf log)
  /-- the fetches stand where their deeds have brought them -/
  fetches : Each (fun deeds p =>
    FetchRun.Stands r₀.providers p.fetch.network p.fetch.address deeds p) w.fetches
    fun i => doneBy (.fetch i) log
  /-- so do the batches -/
  batches : Each (fun deeds b => BatchRun.Stands r₀.providers r₀.quoteSymbols b.batch.ids deeds b)
    w.batches fun j => doneBy (.batch j) log

theorem Sound.others (h : Sound r₀ log w) {calls : List CacheCall}
    (hr : w.relay.Meanwhile calls r) :
    Sound r₀ (log ++ (calls.map .call).map (Prod.mk .other)) { w with relay := r } where
  providers := hr.providers.trans h.providers
  quoteSymbols := hr.quoteSymbols.trans h.quoteSymbols
  coherent := by
    rcases hr.selector with hsame | ⟨n, url, latency, now, hpublished⟩
    · rw [hsame]
      exact h.coherent
    · rw [hpublished]
      exact h.coherent.publish n url latency now
  cache := by
    have hcalls : (calls.map Deed.call).filterMap Deed.call? = calls := by
      rw [List.filterMap_map]
      exact List.filterMap_some
    rw [hr.cache, h.cache, callsOf_append, callsOf_map_mk, hcalls, PriceCache.run_append]
  fetches := by
    simp only [doneBy_append_map_of_ne (by simp : Party.other ≠ Party.fetch _)]
    exact h.fetches
  batches := by
    simp only [doneBy_append_map_of_ne (by simp : Party.other ≠ Party.batch _)]
    exact h.batches

theorem Sound.fetch (h : Sound r₀ log w) {owner i : Nat} {p p' : FetchRun}
    (hp : w.fetches[i]? = some p) (hstep : p.step? owner w.relay = some (p', r)) :
    Sound r₀
      (log ++ (p.heard w.relay ++ p'.fetch.written.map Deed.write).map (Prod.mk (.fetch i)))
      { w with relay := r, fetches := w.fetches.set i p' } := by
  have hadvances := FetchRun.advances_of_step? hstep
  obtain ⟨hstands, hcoherent⟩ := (h.fetches.begun hp).step h.providers h.coherent hstep
  obtain ⟨hnetwork, haddress⟩ := hstands.identity
  have hreads : (p.heard w.relay).filterMap Deed.call? = [] :=
    List.filterMap_eq_nil_iff.mpr fun _ => FetchRun.call?_of_mem_heard
  refine ⟨hadvances.providers.trans h.providers, hadvances.quoteSymbols.trans h.quoteSymbols,
    hcoherent, ?_, h.fetches.set hp ?_ fun k hk => ?_, ?_⟩
  · rw [hadvances.cache, h.cache, callsOf_append, callsOf_map_mk,
      List.filterMap_append, hreads, filterMap_call?_write, PriceCache.run_append]
    rfl
  · rw [doneBy_append_map, hnetwork, haddress]
    exact hstands
  · exact doneBy_append_map_of_ne (by simpa using Ne.symm hk) _ _
  · simp only [doneBy_append_map_of_ne (by simp : Party.fetch i ≠ Party.batch _)]
    exact h.batches

theorem Sound.batch (h : Sound r₀ log w) {owner j : Nat} {b b' : BatchRun}
    (hb : w.batches[j]? = some b) (hstep : b.step? owner w.relay = some (b', r)) :
    Sound r₀
      (log ++ (b.heard w.relay ++ (b.written w.relay).map Deed.write).map (Prod.mk (.batch j)))
      { w with relay := r, batches := w.batches.set j b' } := by
  obtain ⟨hstands, hsteady⟩ := (h.batches.begun hb).step h.providers h.quoteSymbols hstep
  have hasked : (b.heard w.relay).filterMap Deed.call? = [] :=
    List.filterMap_eq_nil_iff.mpr fun _ => BatchRun.call?_of_mem_heard
  refine ⟨hsteady.providers.trans h.providers, hsteady.quoteSymbols.trans h.quoteSymbols,
    hsteady.selector ▸ h.coherent, ?_, ?_, h.batches.set hb ?_ fun k hk => ?_⟩
  · rw [(BatchRun.advances_of_step? hstep).cache, h.cache, callsOf_append, callsOf_map_mk,
      List.filterMap_append, hasked, filterMap_call?_write, PriceCache.run_append]
    rfl
  · simp only [doneBy_append_map_of_ne (by simp : Party.batch j ≠ Party.fetch _)]
    exact h.fetches
  · rw [doneBy_append_map, hstands.identity]
    exact hstands
  · exact doneBy_append_map_of_ne (by simpa using Ne.symm hk) _ _

/-- Whatever leaves the cache and all that work relies on as they are changes nothing. -/
theorem Sound.steady (h : Sound r₀ log w) (hr : w.relay.Steady r)
    (hcache : r.cache = w.relay.cache) : Sound r₀ log { w with relay := r } :=
  ⟨hr.providers.trans h.providers, hr.quoteSymbols.trans h.quoteSymbols, hr.selector ▸ h.coherent,
    hcache.trans h.cache, h.fetches, h.batches⟩

theorem Sound.swap {before later : List (Party × Deed)} {d d' : Party × Deed}
    (h : Sound r₀ (before ++ d :: d' :: later) w) (hd : d.1 ≠ d'.1) :
    Sound r₀ (before ++ d' :: d :: later) { w with relay := { w.relay with
      cache := r₀.cache.run (callsOf (before ++ d' :: d :: later)) } } := by
  refine ⟨h.providers, h.quoteSymbols, h.coherent, rfl, ?_, ?_⟩
  · simp only [doneBy_swap hd]
    exact h.fetches
  · simp only [doneBy_swap hd]
    exact h.batches

/-- **Every run is sound.** -/
theorem Course.sound (hr : r₀.Untouched) (h : Course r₀ log w) : Sound r₀ log w := by
  induction h with
  | start =>
    obtain ⟨listed, hlisted⟩ := hr.selector
    exact ⟨rfl, rfl, hlisted ▸ Selector.coherent_unsettled listed, rfl,
      ⟨fun hp => (nomatch hp), fun _ => rfl⟩, ⟨fun hb => (nomatch hb), fun _ => rfl⟩⟩
  | others _ hmeanwhile ih => exact ih.others hmeanwhile
  | beginFetch n address _ ih =>
    exact { ih with fetches := ih.fetches.concat .waiting }
  | @beginBatch log w ids _ ih =>
    refine { ih with batches := ih.batches.concat ?_ }
    have hbegin := BatchRun.stands_begin r₀.providers r₀.quoteSymbols
      w.relay.providers.quotes.isSome ids
    rw [hbegin.identity]
    exact hbegin
  | fetch _ hp hstep ih => exact ih.fetch hp hstep
  | batch _ hb hstep ih => exact ih.batch hb hstep
  | swap _ hd ih => exact ih.swap hd

end Workload

/-! ### Where a record comes from -/

namespace PriceCache

/-- A record that is there after a call was written by it, or was there before. -/
theorem get?_make_cases {c : PriceCache} {call : CacheCall} {f : Feed} {e : Entry}
    (h : (c.make call).1.entries.get? f.address = some e) :
    call = .put f e.record ∨ (¬ call.Writes f ∧ c.entries.get? f.address = some e) := by
  have hfiled := get?_of_make h
  cases call with
  | put g r =>
    have hfile : (c.file g r).entries.get? f.address = some e := hfiled
    rw [get?_file] at hfile
    split at hfile
    · next hg =>
      obtain rfl := Feed.address_inj.mp hg
      rw [← Option.some.inj hfile]
      exact .inl rfl
    · next hg => exact .inr ⟨fun hwrites => hg (congrArg Feed.address hwrites), hfile⟩
  | _ => exact .inr ⟨id, hfiled⟩

/-- A record that was not there from the start is the one that was written last. -/
theorem exists_put_of_get?_run {c : PriceCache} {f : Feed}
    (hnone : c.entries.get? f.address = none) {calls : List CacheCall} {e : Entry}
    (h : (c.run calls).entries.get? f.address = some e) :
    ∃ before later, calls = before ++ .put f e.record :: later ∧
      ∀ call ∈ later, ¬ call.Writes f := by
  induction calls using List.reverseRecOn with
  | nil =>
    rw [run_nil, hnone] at h
    cases h
  | append_singleton calls call ih =>
    rw [run_append] at h
    rcases get?_make_cases h with rfl | ⟨hnot, hbefore⟩
    · exact ⟨calls, [], rfl, fun call hcall => (nomatch hcall)⟩
    · obtain ⟨before, later, rfl, hlater⟩ := ih hbefore
      refine ⟨before, later ++ [call], by simp, fun other hother => ?_⟩
      rcases List.mem_append.mp hother with hother | hother
      · exact hlater other hother
      · rw [List.mem_singleton.mp hother]
        exact hnot

end PriceCache

namespace Workload

variable {r₀ : Relay σ} {log : List (Party × Deed)} {w : Workload σ}

/-! ### What was done -/

/-- What was done by the work that was begun, and what is left of it in the cache. -/
structure Accounts (r₀ : Relay σ) (log : List (Party × Deed)) (w : Workload σ) : Prop where
  /-- the cache is what the calls made of it, and nothing else -/
  cache : w.relay.cache = r₀.cache.run (callsOf log)
  /-- a fetch that is not finished, or has failed, has read its contract in vain and done nothing
  else -/
  fetch_nothing : ∀ i p, w.fetches[i]? = some p →
    (∀ record, p.fetch.answer? ≠ some (.ok record)) →
      FetchRun.Tried r₀.providers p.fetch.network p.fetch.address (doneBy (.fetch i) log)
  /-- one that has succeeded has then written one record, that of the round it read last over a
  handle of its network -/
  fetch_all : ∀ i p record, w.fetches[i]? = some p → p.fetch.answer? = some (.ok record) →
    ∃ tried t round now,
      FetchRun.Tried r₀.providers p.fetch.network p.fetch.address tried ∧
      t.network = p.fetch.network ∧ r₀.providers.Reads t p.fetch.address (.ok round) ∧
      record = .aggregator (round.price p.fetch.network p.fetch.address now) ∧
      doneBy (.fetch i) log = tried ++ [.read t p.fetch.address (.ok round),
        .call (.put ⟨p.fetch.network, .chainlink, p.fetch.address⟩ record)]
  /-- a batch that is not finished, or has failed, has asked in vain at most -/
  batch_nothing : ∀ j b, w.batches[j]? = some b → (∀ k, b.batch.answer? ≠ some (.ok k)) →
    doneBy (.batch j) log = [] ∨ ∃ fault, doneBy (.batch j) log = [.ask b.batch.ids (.error fault)]
  /-- one that has succeeded has written as many quotes as it tells: those of the reply that it
  asked for, in their order, or none if it had nothing to ask for -/
  batch_all : ∀ j b k, w.batches[j]? = some b → b.batch.answer? = some (.ok k) →
    (doneBy (.batch j) log = [] ∧ k = 0) ∨
      ∃ quotes now, r₀.providers.Replies b.batch.ids (.ok quotes) ∧
        let ws := Batch.writes b.batch.ids r₀.quoteSymbols now quotes
        doneBy (.batch j) log = .ask b.batch.ids (.ok quotes) :: ws.map Deed.write ∧
        ws.length = k ∧
        ws.map Write.feed = ((quotes.map Quote.identifier).filter fun id => id ∈ b.batch.ids).map
          fun id => ⟨.offChain, .pyth, id⟩
  /-- a record that is there is the one that was written last for its feed, and if a fetch or a
  batch wrote it, it is one of this feed -/
  live : ∀ f record, w.relay.cache.get f = .ok record →
    ∃ before who later, log = before ++ (who, .call (.put f record)) :: later ∧
      (∀ who' record', (who', .call (.put f record')) ∉ later) ∧
      (who ≠ .other → record.IsOf f)

/-- What a fetch or a batch has written is a record of the feed it is filed for. -/
theorem Sound.isOf (h : Sound r₀ log w) {who : Party} {f : Feed} {record : Record}
    (hd : (who, .call (.put f record)) ∈ log) (hwho : who ≠ .other) : record.IsOf f := by
  have hdone := mem_doneBy.mpr hd
  cases who with
  | other => exact absurd rfl hwho
  | fetch i =>
    cases hp : w.fetches[i]? with
    | none =>
      rw [h.fetches.unbegun hp] at hdone
      cases hdone
    | some p => exact (h.fetches.begun hp).isOf hdone
  | batch j =>
    cases hb : w.batches[j]? with
    | none =>
      rw [h.batches.unbegun hb] at hdone
      cases hdone
    | some b => exact (h.batches.begun hb).isOf hdone

/-- **Fetches are all or nothing.** In every run, from a relay that nothing was done to, a fetch
that fails has called the cache for nothing, and one that succeeds for one write, of the round that
its last read gave; a batch that fails for nothing, and one that succeeds for the quotes it tells.
So a record that a fetch or a batch has written is one of the feed it is filed for. -/
theorem all_or_nothing (hr : r₀.Untouched) (h : Course r₀ log w) : Accounts r₀ log w := by
  have hsound := h.sound hr
  refine ⟨hsound.cache, fun i p hp hnot => (hsound.fetches.begun hp).tried hnot,
    fun i p record hp hanswer => (hsound.fetches.begun hp).stored_of_ok hanswer,
    fun j b hb hnot => ?_, fun j b k hb hanswer => ?_, fun f record hget => ?_⟩
  · rcases (hsound.batches.begun hb).asked hnot with hnone | ⟨fault, hasked, -⟩
    · exact .inl hnone
    · exact .inr ⟨fault, hasked⟩
  · rcases (hsound.batches.begun hb).stored_of_ok hanswer with
      hnone | ⟨quotes, now, hreply, hdone, hk⟩
    · exact .inl hnone
    · exact .inr ⟨quotes, now, hreply, hdone, hk.symm, Batch.map_feed_writes ..⟩
  · obtain ⟨sizes, cap, policy, hfresh⟩ := hr.cache
    obtain ⟨e, he, rfl⟩ := PriceCache.get_eq_ok_iff.mp hget
    rw [hsound.cache, hfresh] at he
    obtain ⟨before, later, hcalls, hlater⟩ := PriceCache.exists_put_of_get?_run rfl he
    -- the call stands in the log, and what was logged later are the later calls
    obtain ⟨log₁, rest, rfl, -, hrest⟩ := List.filterMap_eq_append_iff.mp hcalls
    obtain ⟨log₂, ⟨who, d⟩, log₃, rfl, -, hd, hlog₃⟩ := List.filterMap_eq_cons_iff.mp hrest
    have hput : d = .call (.put f e.record) := by
      cases d with
      | call call => exact congrArg Deed.call (Option.some.inj hd)
      | _ => cases hd
    subst hput
    refine ⟨log₁ ++ log₂, who, log₃, by rw [List.append_assoc], fun who' record' hmem => ?_,
      hsound.isOf (by simp)⟩
    refine hlater (.put f record') ?_ rfl
    rw [← hlog₃]
    exact List.mem_filterMap.mpr ⟨_, hmem, rfl⟩

/-- A relay to which every contract answers the same round. -/
def answering : Relay Unit where
  providers := {
    roundTrip := fun _ _ outside => (⟨0, false⟩, outside)
    readRound := fun _ _ outside => (⟨0, .ok ⟨7, 350, 0, 0, 7, 8⟩⟩, outside)
    readDone := fun outside => outside
    quotes := none }
  outside := ()
  cache := .fresh {} 1000 .leastRecentlyWritten
  limiter := .ofCount 2

/-- Of two fetches at once, one reads its contract over the endpoint of its network, and the other
finds none on its own. -/
theorem all_or_nothing_of_two :
    answering.Untouched ∧ ∃ log w, Course answering log w ∧ Accounts answering log w ∧
      w.fetches.map (fun p => p.fetch.answer?) =
        [some (.ok (.aggregator ⟨7, 350, 0, 0, 7, -8, 1, "0xA", .running 0⟩)),
          some (.error (.noTransport 2))] ∧
      ∃ record, callsOf log = [.put ⟨1, .chainlink, "0xA"⟩ record] := by
  have huntouched : answering.Untouched := ⟨⟨_, _, _, rfl⟩, ⟨.empty, rfl⟩⟩
  let published := { answering with
    selector := (answering.selector.publish 1 "http://a" 1 (.running 0)).2 }
  have hpublished : answering.Meanwhile [] published :=
    ⟨rfl, rfl, rfl, .inr ⟨1, "http://a", 1, .running 0, rfl⟩⟩
  have hstart : Course answering [] ⟨answering, [], []⟩ := .start
  have hbegun := ((hstart.others hpublished).beginFetch 1 "0xA").beginFetch 2 "0xB"
  have hreads := @Course.fetch Unit answering _ _ 0 0 _ _ _ hbegun rfl rfl
  have hfails := @Course.fetch Unit answering _ _ 0 1 _ _ _ hreads rfl rfl
  have hstored := @Course.fetch Unit answering _ _ 0 0 _ _ _ hfails rfl rfl
  exact ⟨huntouched, _, _, hstored, all_or_nothing huntouched hstored, rfl, _, rfl⟩

end Workload

end PriceRelay
