import PriceRelay.Proofs.Cache.Calls
import PriceRelay.Proofs.Fetch.Plan
import PriceRelay.Proofs.Relay.Requests
/-!
# What fetches and batches write

A fetch writes the record of its feed in the step that finishes it, or nothing. A batch writes all
quotes of a reply in one step, and tells how many they were. No other step touches the cache.

* `Relay.Steady` says that what work relies on is as it was,
* `Fetch.written` is what a fetch has written, `BatchRun.written` what the next step of a batch will
  write,
* `FetchRun.Advances` and `BatchRun.Advances` say what a step may do, `FetchRun.advances_of_step?`
  and `BatchRun.advances_of_step?` that it does nothing else.
-/

namespace PriceRelay

variable {σ : Type}

/-- The call to the cache that a write is. -/
def Write.call (w : Write) : CacheCall := .put w.feed w.record

namespace Relay

theorem cache_writeAll (r : Relay σ) (ws : List Write) :
    (r.writeAll ws).cache = r.cache.run (ws.map Write.call) := by
  induction ws generalizing r with
  | nil => rfl
  | cons w ws ih => exact ih (r.write w)

theorem cache_releasePermit (r : Relay σ) : r.releasePermit.cache = r.cache := by
  rw [releasePermit]
  split
  · rfl
  · rw [wake]
    split <;> rfl

theorem Asks.cache_eq {r r' : Relay σ} (h : r.Asks r') : r'.cache = r.cache := by
  obtain ⟨outside, stamps, rfl⟩ := h
  rfl

/-- What work relies on is as it was: the providers, the symbols and the endpoints. -/
structure Steady (r r' : Relay σ) : Prop where
  /-- the world outside answers as it did -/
  providers : r'.providers = r.providers
  /-- quotes have the symbols they had -/
  quoteSymbols : r'.quoteSymbols = r.quoteSymbols
  /-- the endpoints are the same -/
  selector : r'.selector = r.selector

theorem Steady.refl (r : Relay σ) : r.Steady r := ⟨rfl, rfl, rfl⟩

theorem Steady.trans {r r' r'' : Relay σ} (h : r.Steady r') (h' : r'.Steady r'') : r.Steady r'' :=
  ⟨h'.providers.trans h.providers, h'.quoteSymbols.trans h.quoteSymbols,
    h'.selector.trans h.selector⟩

theorem Asks.steady {r r' : Relay σ} (h : r.Asks r') : r.Steady r' := by
  obtain ⟨outside, stamps, rfl⟩ := h
  exact ⟨rfl, rfl, rfl⟩

theorem steady_writeAll (r : Relay σ) (ws : List Write) : r.Steady (r.writeAll ws) := by
  induction ws generalizing r with
  | nil => exact .refl r
  | cons w ws ih =>
    have hwrite : r.Steady (r.write w) := ⟨rfl, rfl, rfl⟩
    exact hwrite.trans (ih (r.write w))

theorem steady_releasePermit (r : Relay σ) : r.Steady r.releasePermit := by
  rw [releasePermit]
  split
  · exact ⟨rfl, rfl, rfl⟩
  · rw [wake]
    split <;> exact ⟨rfl, rfl, rfl⟩

end Relay

/-! ### Fetches -/

namespace Fetch

variable {f : Fetch}

/-- What a fetch has written. -/
def written (f : Fetch) : List Write :=
  match f.answer? with
  | some (.ok record) => [⟨f.feed, record⟩]
  | _ => []

theorem written_of_unfinished (h : f.answer? = none) : f.written = [] := by
  rw [written, h]

/-- A fetch has written its feed once, or nothing. -/
theorem map_feed_written (f : Fetch) : (f.written.map Write.feed).Sublist [f.feed] := by
  rw [written]
  split
  · exact .refl _
  · exact List.nil_sublist _

theorem source_of_mem_written {w : Write} (h : w ∈ f.written) : w.feed.source = .chainlink := by
  have hfeed := f.map_feed_written.subset (List.mem_map_of_mem h)
  rw [List.mem_singleton.mp hfeed, feed]

/-- To follow a call is to write what the fetch has written then. -/
theorem follow_eq (f : Fetch) (now : Moment) (call : FailoverCall Round) :
    (f.follow now call).2 = (f.follow now call).1.written ∧
      (f.follow now call).1.feed = f.feed := by
  rw [follow]
  split <;> exact ⟨rfl, rfl⟩

theorem enter_eq (h : f.answer? = none) (now : Moment) (s : Selector) :
    (f.enter now s).2 = (f.enter now s).1.written ∧ (f.enter now s).1.feed = f.feed := by
  rw [enter]
  split
  · exact follow_eq f now _
  · exact ⟨(written_of_unfinished h).symm, rfl⟩

theorem step_eq (h : f.answer? = none) (policy : FailoverPolicy) (now : Moment)
    (e : FailoverCall.Event Round) (s : Selector) :
    (f.step policy now e s).1.2 = (f.step policy now e s).1.1.written ∧
      (f.step policy now e s).1.1.feed = f.feed := by
  rw [step]
  split
  · exact follow_eq f now _
  · exact ⟨(written_of_unfinished h).symm, rfl⟩

end Fetch

namespace FetchRun

/-- To go on with a fetch leaves all else as it was. -/
theorem steady_proceed (p : FetchRun) (fetch : Fetch) (ws : List Write) (r : Relay σ) :
    r.Steady (p.proceed fetch ws r).2 := by
  have hwrite := r.steady_writeAll ws
  rw [proceed]
  split
  · exact hwrite.trans (Relay.asks_await _ _ _ _).steady
  · exact hwrite.trans (Relay.steady_releasePermit _)
  · exact hwrite

/-- What a step of a fetch may do. -/
structure Advances (p : FetchRun) (r : Relay σ) (p' : FetchRun) (r' : Relay σ) : Prop where
  /-- a fetch that is finished makes no step -/
  unfinished : p.fetch.answer? = none
  /-- the feed stays the same -/
  feed : p'.fetch.feed = p.fetch.feed
  /-- what the fetch has written then is written in this step -/
  cache : r'.cache = r.cache.run (p'.fetch.written.map Write.call)
  /-- the world outside answers as it did -/
  providers : r'.providers = r.providers
  /-- quotes have the symbols they had -/
  quoteSymbols : r'.quoteSymbols = r.quoteSymbols

theorem proceed_eq (p : FetchRun) (fetch : Fetch) (ws : List Write) (r : Relay σ) :
    (p.proceed fetch ws r).1.fetch = fetch ∧
      (p.proceed fetch ws r).2.cache = r.cache.run (ws.map Write.call) := by
  rw [proceed]
  split
  · exact ⟨rfl, (Relay.asks_await _ _ _ _).cache_eq.trans (Relay.cache_writeAll r ws)⟩
  · exact ⟨rfl, (Relay.cache_releasePermit _).trans (Relay.cache_writeAll r ws)⟩
  · exact ⟨rfl, Relay.cache_writeAll r ws⟩

theorem advances_of_proceed {p : FetchRun} {r : Relay σ} (r₁ : Relay σ) {fetch : Fetch}
    {ws : List Write} (hunfinished : p.fetch.answer? = none) (hcache : r₁.cache = r.cache)
    (hproviders : r₁.providers = r.providers) (hsymbols : r₁.quoteSymbols = r.quoteSymbols)
    (h : ws = fetch.written ∧ fetch.feed = p.fetch.feed) :
    p.Advances r (p.proceed fetch ws r₁).1 (p.proceed fetch ws r₁).2 := by
  obtain ⟨rfl, hfeed⟩ := h
  obtain ⟨hfetch, hwritten⟩ := p.proceed_eq fetch fetch.written r₁
  have hsteady := p.steady_proceed fetch fetch.written r₁
  refine ⟨hunfinished, by rw [hfetch, hfeed], ?_, hsteady.providers.trans hproviders,
    hsteady.quoteSymbols.trans hsymbols⟩
  rw [hfetch, hwritten, hcache]

/-- **What a step of a fetch does.** -/
theorem advances_of_step? {owner : Nat} {p p' : FetchRun} {r r' : Relay σ}
    (h : p.step? owner r = some (p', r')) : p.Advances r p' r' := by
  cases hphase : p.fetch.phase with
  | finished answer =>
    rw [step?, hphase] at h
    cases h
  | waiting =>
    have hunfinished : p.fetch.answer? = none := by rw [Fetch.answer?, hphase]
    -- however it is admitted, it goes on with another limiter, which has no part in the cache
    have hadmitted (limiter : Limiter) : p.Advances r
        (p.admitted { r with limiter := limiter }).1 (p.admitted { r with limiter := limiter }).2 :=
      advances_of_proceed { r with limiter := limiter } hunfinished rfl rfl rfl
        (Fetch.enter_eq hunfinished _ _)
    rw [step?, hphase] at h
    dsimp only at h
    split at h
    · obtain ⟨limiter, -, heq⟩ := Option.map_eq_some_iff.mp h
      have hadvances := hadmitted limiter
      rwa [heq] at hadvances
    · split at h
      · next limiter _ =>
        have hadvances := hadmitted limiter
        rwa [Option.some.inj h] at hadvances
      · obtain ⟨rfl, rfl⟩ := Prod.mk.inj (Option.some.inj h)
        exact ⟨hunfinished, rfl, by rw [Fetch.written_of_unfinished hunfinished]; rfl, rfl, rfl⟩
  | calling call =>
    have hunfinished : p.fetch.answer? = none := by rw [Fetch.answer?, hphase]
    rw [step?, hphase] at h
    obtain ⟨e, -, heq⟩ := Option.map_eq_some_iff.mp h
    -- so too when the end of a request has been told before
    have hproceed (outside : σ) := advances_of_proceed (r := r)
      { r with
        outside := outside
        selector := (p.fetch.step r.tunables.failover r.moment e r.selector).2 }
      hunfinished rfl rfl rfl
      (Fetch.step_eq hunfinished r.tunables.failover r.moment e r.selector)
    cases hends : p.wait.endsRequest with
    | false =>
      simp only [hends, Bool.false_eq_true, if_false] at heq
      obtain ⟨rfl, rfl⟩ := Prod.ext_iff.mp heq
      exact hproceed r.outside
    | true =>
      simp only [hends, if_true] at heq
      obtain ⟨rfl, rfl⟩ := Prod.ext_iff.mp heq
      exact hproceed (r.providers.readDone r.outside)

end FetchRun

/-! ### Batches -/

/-- How many quotes a batch has written. -/
def Batch.stored (b : Batch) : Nat :=
  match b.answer? with
  | some (.ok k) => k
  | _ => 0

theorem Batch.stored_of_unfinished {b : Batch} (h : b.answer? = none) : b.stored = 0 := by
  rw [Batch.stored, h]

namespace BatchRun

/-- What a batch writes in its next step: what a reply that is there makes it write. -/
def written (b : BatchRun) (r : Relay σ) : List Write :=
  match b.batch.phase, b.wait with
  | .asking, .outcome a =>
    match a.now? r.now with
    | some reply => (b.batch.heard r.quoteSymbols r.moment reply).2
    | none => []
  | _, _ => []

/-- What a step of a batch may do when it writes `ws`. -/
structure Advances (b : BatchRun) (r : Relay σ) (ws : List Write) (b' : BatchRun) (r' : Relay σ) :
    Prop where
  /-- a batch that is finished makes no step -/
  unfinished : b.batch.answer? = none
  /-- the ids stay the same -/
  ids : b'.batch.ids = b.batch.ids
  /-- what is written goes to the cache -/
  cache : r'.cache = r.cache.run (ws.map Write.call)
  /-- the batch tells how many quotes it has written -/
  stored : b'.batch.stored = ws.length
  /-- they are feeds of no chain, with ids that were asked for -/
  feed : ∀ w ∈ ws, ∃ id ∈ b.batch.ids, w.feed = ⟨.offChain, .pyth, id⟩

/-- A step that writes nothing and does not finish the batch. -/
theorem advances_of_unfinished {b b' : BatchRun} {r r' : Relay σ} (h : b.batch.answer? = none)
    (hids : b'.batch.ids = b.batch.ids) (h' : b'.batch.answer? = none)
    (hcache : r'.cache = r.cache) : b.Advances r [] b' r' where
  unfinished := h
  ids := hids
  cache := hcache
  stored := Batch.stored_of_unfinished h'
  feed w hw := by cases hw

theorem admitted_eq {b : BatchRun} (h : b.batch.phase = .waiting) (r : Relay σ) :
    (b.admitted r).1.batch.ids = b.batch.ids ∧ (b.admitted r).1.batch.answer? = none ∧
      (b.admitted r).2.cache = r.cache := by
  rw [admitted]
  split
  · exact ⟨rfl, by rw [Batch.answer?, h], rfl⟩
  · have henter : b.batch.enter = { b.batch with phase := .asking } := by rw [Batch.enter, h]
    rw [henter]
    exact ⟨rfl, rfl, rfl⟩

/-- **What a step of a batch does.** -/
theorem advances_of_step? {owner : Nat} {b b' : BatchRun} {r r' : Relay σ}
    (h : b.step? owner r = some (b', r')) : b.Advances r (b.written r) b' r' := by
  cases hphase : b.batch.phase with
  | finished answer =>
    rw [step?, hphase] at h
    cases h
  | waiting =>
    have hunfinished : b.batch.answer? = none := by rw [Batch.answer?, hphase]
    have hadmitted (limiter : Limiter) : b.Advances r []
        (b.admitted { r with limiter := limiter }).1
        (b.admitted { r with limiter := limiter }).2 := by
      obtain ⟨hids, hanswer, hcache⟩ := admitted_eq hphase { r with limiter := limiter }
      exact advances_of_unfinished hunfinished hids hanswer hcache
    rw [written, hphase]
    rw [step?, hphase] at h
    dsimp only at h
    split at h
    · obtain ⟨limiter, -, heq⟩ := Option.map_eq_some_iff.mp h
      have hadvances := hadmitted limiter
      rwa [heq] at hadvances
    · split at h
      · next limiter _ =>
        have hadvances := hadmitted limiter
        rwa [Option.some.inj h] at hadvances
      · obtain ⟨rfl, rfl⟩ := Prod.mk.inj (Option.some.inj h)
        exact advances_of_unfinished hunfinished rfl hunfinished rfl
  | asking =>
    have hunfinished : b.batch.answer? = none := by rw [Batch.answer?, hphase]
    rw [step?, hphase] at h
    dsimp only at h
    split at h
    · next a hwait =>
      obtain ⟨reply, hreply, heq⟩ := Option.map_eq_some_iff.mp h
      obtain ⟨rfl, rfl⟩ := Prod.mk.inj heq
      have hwritten : b.written r = (b.batch.heard r.quoteSymbols r.moment reply).2 := by
        simp only [written, hphase, hwait, hreply]
      have hcache (ws : List Write) :
          (r.writeAll ws).releasePermit.cache = r.cache.run (ws.map Write.call) :=
        (Relay.cache_releasePermit _).trans (Relay.cache_writeAll r ws)
      rw [hwritten]
      cases reply with
      | error fault =>
        rw [Batch.heard, hphase]
        exact ⟨hunfinished, rfl, hcache _, rfl, fun w hw => (nomatch hw)⟩
      | ok quotes =>
        rw [Batch.heard, hphase]
        exact ⟨hunfinished, rfl, hcache _, rfl, fun w hw => Batch.feed_of_mem_writes hw⟩
    · cases h

end BatchRun

end PriceRelay
