import PriceRelay.Proofs.Relay.Call
import PriceRelay.Proofs.Relay.Writes
/-!
# What a fetch and a batch do

A fetch reads its contract, over one handle after another, until a read succeeds or it gives up; a
batch asks once. What they do is told as a list of deeds: what came back to them, and their calls to
the cache. A fetch that is not finished, or has failed, has read in vain and called the cache for
nothing; one that has succeeded has then written the record of the round that its last read gave. So
it is with a batch and the quotes of its reply.

* `Deed` is something done, `doneBy` what a party has done, `callsOf` the calls to the cache,
* `FetchRun.heard` and `BatchRun.heard` are what comes back in a step,
* `FetchRun.Stands` and `BatchRun.Stands` say where a piece of work stands after some deeds,
  `FetchRun.Stands.step` and `BatchRun.Stands.step` what one step makes of it.
-/

namespace PriceRelay

variable {σ : Type}

/-- Who does something. -/
inductive Party
  /-- a fetch, by its number -/
  | fetch (i : Nat)
  /-- a batch, by its number -/
  | batch (i : Nat)
  /-- anyone else -/
  | other
deriving DecidableEq

/-- Something done. -/
inductive Deed
  /-- a contract was read over a handle, and this came back -/
  | read (t : Transport) (address : String) (outcome : Except Fault Round)
  /-- quotes were asked for, and this came back -/
  | ask (ids : List String) (reply : Except Fault (List Quote))
  /-- the cache was called -/
  | call (call : CacheCall)

/-- The call to the cache that a deed is, if it is one. -/
def Deed.call? : Deed → Option CacheCall
  | .call c => some c
  | _ => none

/-- To write a record is to call the cache. -/
def Deed.write (w : Write) : Deed := .call w.call

/-- The calls to the cache, by whomever. -/
def callsOf (log : List (Party × Deed)) : List CacheCall := log.filterMap fun entry => entry.2.call?

/-- What a party has done. -/
def doneBy (who : Party) (log : List (Party × Deed)) : List Deed :=
  (log.filter fun entry => entry.1 = who).map Prod.snd

theorem callsOf_append (log more : List (Party × Deed)) :
    callsOf (log ++ more) = callsOf log ++ callsOf more :=
  List.filterMap_append

theorem callsOf_map_mk (who : Party) (deeds : List Deed) :
    callsOf (deeds.map (Prod.mk who)) = deeds.filterMap Deed.call? := by
  rw [callsOf, List.filterMap_map]
  rfl

theorem filterMap_call?_write (ws : List Write) :
    (ws.map Deed.write).filterMap Deed.call? = ws.map Write.call := by
  rw [List.filterMap_map, ← List.filterMap_eq_map]
  rfl

/-- What a party does is added to what it has done. -/
theorem doneBy_append_map (who : Party) (log : List (Party × Deed)) (deeds : List Deed) :
    doneBy who (log ++ deeds.map (Prod.mk who)) = doneBy who log ++ deeds := by
  have hown : (deeds.map (Prod.mk who)).filter (fun entry => entry.1 = who) =
      deeds.map (Prod.mk who) := by
    refine List.filter_eq_self.mpr fun entry hentry => ?_
    obtain ⟨d, -, rfl⟩ := List.mem_map.mp hentry
    exact decide_eq_true rfl
  rw [doneBy, List.filter_append, List.map_append, hown, List.map_map]
  exact congrArg _ (List.map_id' _)

/-- To others it adds nothing. -/
theorem doneBy_append_map_of_ne {who who' : Party} (h : who' ≠ who) (log : List (Party × Deed))
    (deeds : List Deed) : doneBy who (log ++ deeds.map (Prod.mk who')) = doneBy who log := by
  have hnone : (deeds.map (Prod.mk who')).filter (fun entry => entry.1 = who) = [] := by
    refine List.filter_eq_nil_iff.mpr fun entry hentry => ?_
    obtain ⟨d, -, rfl⟩ := List.mem_map.mp hentry
    simpa using h
  rw [doneBy, List.filter_append, hnone, List.append_nil, doneBy]

/-- In whatever order two parties come, each has done the same. -/
theorem doneBy_swap {d d' : Party × Deed} (h : d.1 ≠ d'.1) (who : Party)
    (before later : List (Party × Deed)) :
    doneBy who (before ++ d' :: d :: later) = doneBy who (before ++ d :: d' :: later) := by
  simp only [doneBy, List.filter_append, List.filter_cons]
  by_cases hd : d.1 = who
  · have hd' : d'.1 ≠ who := fun hwho => h (hd.trans hwho.symm)
    simp [hd, hd']
  · simp [hd]

theorem mem_doneBy {who : Party} {d : Deed} {log : List (Party × Deed)} :
    d ∈ doneBy who log ↔ (who, d) ∈ log := by
  simp [doneBy]

/-- The record is one of the feed. -/
structure Record.IsOf (r : Record) (f : Feed) : Prop where
  /-- it comes from the source of the feed -/
  source : r.source = f.source
  /-- it belongs to the network of the feed -/
  network : r.network = f.network
  /-- its source calls it as it calls the feed -/
  identifier : r.identifier = f.identifier

/-! ### What comes back -/

/-- A contract, read over a handle, may answer so. -/
def Providers.Reads (p : Providers σ) (t : Transport) (address : String)
    (outcome : Except Fault Round) : Prop :=
  ∃ outside, (p.readRound t address outside).1.value = outcome

/-- The quote service, asked for some ids, may reply so. -/
def Providers.Replies (p : Providers σ) (ids : List String) (reply : Except Fault (List Quote)) :
    Prop :=
  ∃ service outside, p.quotes = some service ∧ (service ids outside).1.value = reply

/-! ### Fetches -/

namespace FetchRun

/-- What comes back to a fetch in its next step. -/
def heard (p : FetchRun) (r : Relay σ) : List Deed :=
  match p.fetch.phase, p.wait with
  | .calling ⟨_, _, .attempting t⟩, .outcome a =>
    (a.now? r.now).toList.map (.read t p.fetch.address)
  | _, _ => []

/-- It is no call to the cache. -/
theorem call?_of_mem_heard {p : FetchRun} {r : Relay σ} {d : Deed} (hd : d ∈ p.heard r) :
    d.call? = none := by
  rw [heard] at hd
  split at hd
  · obtain ⟨o, -, rfl⟩ := List.mem_map.mp hd
    rfl
  · cases hd

section Stands

variable (providers : Providers σ) (n : NetworkId) (address : String)

/-- All that was done is to read the contract over handles of its network, to no avail. -/
def Tried (deeds : List Deed) : Prop :=
  ∀ d ∈ deeds, ∃ t fault, d = .read t address (.error fault) ∧ t.network = n ∧
    providers.Reads t address (.error fault)

/-- Where the call of a fetch stands after some deeds. -/
inductive Reached : List Deed → FailoverCall Round → Prop
  /-- the contract is being read -/
  | attempting {deeds k t} : Tried providers n address deeds → t.network = n →
      Reached deeds ⟨n, k, .attempting t⟩
  /-- another endpoint is looked for -/
  | switching {deeds k avoid fault} : Tried providers n address deeds →
      Reached deeds ⟨n, k, .switching avoid fault⟩
  /-- it pauses -/
  | pausing {deeds k t} : Tried providers n address deeds → t.network = n →
      Reached deeds ⟨n, k, .pausing t⟩
  /-- it has failed -/
  | failed {deeds k fault} : Tried providers n address deeds →
      Reached deeds ⟨n, k, .finished (.error fault)⟩
  /-- the last read gave a round -/
  | answered {deeds k t round} : Tried providers n address deeds → t.network = n →
      providers.Reads t address (.ok round) →
      Reached (deeds ++ [.read t address (.ok round)]) ⟨n, k, .finished (.ok round)⟩

/-- What a call waits for is what its phase asks for. -/
inductive Fits : FailoverCall.Phase Round → Wait (Except Fault Round) → Prop
  /-- the outcome of a read -/
  | attempting {t a} : providers.Reads t address a.value → Fits (.attempting t) (.outcome a)
  /-- the probes of a switch -/
  | switching {avoid fault ps} : Fits (.switching avoid fault) (.probes ps)
  /-- the end of a pause -/
  | pausing {t a} : Fits (.pausing t) (.pause a)

/-- Where a fetch stands after some deeds. -/
inductive Stands : List Deed → FetchRun → Prop
  /-- it has no permit yet -/
  | waiting {wait tried} : Stands [] ⟨⟨n, address, .waiting⟩, wait, tried⟩
  /-- its call is under way -/
  | calling {deeds call wait tried} : Reached providers n address deeds call →
      Fits providers address call.phase wait →
      Stands deeds ⟨⟨n, address, .calling call⟩, wait, tried⟩
  /-- it has failed -/
  | failed {deeds fault wait tried} : Tried providers n address deeds →
      Stands deeds ⟨⟨n, address, .finished (.error fault)⟩, wait, tried⟩
  /-- the last read gave a round, and its record was written -/
  | stored {deeds t round now wait tried} : Tried providers n address deeds → t.network = n →
      providers.Reads t address (.ok round) →
      Stands (deeds ++ [.read t address (.ok round), .call (.put ⟨n, .chainlink, address⟩
          (.aggregator (round.price n address now)))])
        ⟨⟨n, address, .finished (.ok (.aggregator (round.price n address now)))⟩, wait, tried⟩

end Stands

variable {providers : Providers σ} {n : NetworkId} {address : String} {deeds : List Deed}
  {r r' : Relay σ} {p p' : FetchRun}

theorem tried_nil : Tried providers n address [] := fun _ hd => (nomatch hd)

theorem Tried.concat (h : Tried providers n address deeds) {t : Transport} {fault : Fault}
    (ht : t.network = n) (hread : providers.Reads t address (.error fault)) :
    Tried providers n address (deeds ++ [.read t address (.error fault)]) := by
  intro d hd
  rcases List.mem_append.mp hd with hd | hd
  · exact h d hd
  · exact ⟨t, fault, List.mem_singleton.mp hd, ht, hread⟩

/-- A call begins over the endpoint of its network, or fails at once. -/
theorem reached_begin {s : Selector} (hs : s.Coherent) (n : NetworkId) :
    Reached providers n address [] (.begin s n) := by
  rw [FailoverCall.begin, Selector.bestTransport]
  cases hentry : s.table.get? n with
  | none => exact .failed tried_nil
  | some a => exact .attempting tried_nil (hs.serves hentry).transport_network

/-- What a call waits for next is what its phase asks for. -/
theorem fits_await (address : String) (r : Relay σ) (call : FailoverCall Round)
    (tried : List Transport) (h : call.answer? = none) :
    Fits r.providers address call.phase
      (r.await (.readRound r.providers address) call tried).1 := by
  obtain ⟨n, k, phase⟩ := call
  cases phase with
  | attempting t => exact .attempting ⟨r.outside, rfl⟩
  | switching avoid fault => exact .switching
  | pausing t => exact .pausing
  | finished answer => cases h

/-- A fetch that follows its call waits for what the call waits for, has failed with it, or has
written the round. -/
theorem Reached.proceed {call : FailoverCall Round} (h : Reached providers n address deeds call)
    (hr : r.providers = providers) (p : FetchRun) (phase : Fetch.Phase) (now : Moment) :
    let follow := (⟨n, address, phase⟩ : Fetch).follow now call
    Stands providers n address
      (deeds ++ (p.proceed follow.1 follow.2 r).1.fetch.written.map Deed.write)
      (p.proceed follow.1 follow.2 r).1 := by
  subst hr
  intro follow
  -- what the fetch is made to write has no part in what it waits for
  have hwaits (hcall : call.answer? = none) : Stands r.providers n address
      (deeds ++ (p.proceed follow.1 follow.2 r).1.fetch.written.map Deed.write)
      (p.proceed follow.1 follow.2 r).1 := by
    have hfollow : follow = (⟨n, address, .calling call⟩, []) := by
      simp only [follow, Fetch.follow, hcall]
    have hfits := fits_await address r call p.tried hcall
    rw [hfollow]
    simp only [FetchRun.proceed, Relay.writeAll, List.foldl_nil, Fetch.written, Fetch.answer?,
      List.map_nil, List.append_nil]
    exact .calling h hfits
  cases h with
  | attempting _ _ => exact hwaits rfl
  | switching _ => exact hwaits rfl
  | pausing _ _ => exact hwaits rfl
  | failed htried =>
    change Stands r.providers n address (_ ++ []) _
    rw [List.append_nil]
    exact .failed htried
  | answered htried ht hread =>
    change Stands r.providers n address (_ ++ [_] ++ [_]) _
    rw [List.append_assoc]
    exact .stored htried ht hread

/-- **What happens to a call is told by what comes back to the fetch.** -/
theorem Reached.step {k : UInt32} {phase : FailoverCall.Phase Round}
    {wait : Wait (Except Fault Round)} {e : FailoverCall.Event Round}
    (h : Reached providers n address deeds ⟨n, k, phase⟩) (tried : List Transport)
    (hfits : Fits providers address phase wait)
    (hs : r.selector.Coherent) (he : wait.event? r.now = some e) :
    Reached providers n address
        (deeds ++ heard ⟨⟨n, address, .calling ⟨n, k, phase⟩⟩, wait, tried⟩ r)
        (FailoverCall.step r.tunables.failover r.moment e ⟨n, k, phase⟩ r.selector).1 ∧
      (FailoverCall.step r.tunables.failover r.moment e ⟨n, k, phase⟩ r.selector).2.Coherent := by
  cases hfits with
  | @attempting t a hread =>
    obtain ⟨htried, ht⟩ : Tried providers n address deeds ∧ t.network = n := by
      cases h with
      | attempting htried ht => exact ⟨htried, ht⟩
    obtain ⟨o, ho, rfl⟩ := Option.map_eq_some_iff.mp he
    obtain ⟨hdue, rfl⟩ := Awaited.now?_eq_some_iff.mp ho
    have hheard : heard ⟨⟨n, address, .calling ⟨n, k, .attempting t⟩⟩, .outcome a, tried⟩ r =
        [.read t address a.value] := by
      simp only [heard, ho, Option.toList_some, List.map_cons, List.map_nil]
    rw [hheard]
    rcases FailoverCall.step_outcome r.tunables.failover r.selector n k t r.moment a.value with
      ⟨hstep, -⟩ | ⟨fault, hfault, -, -, hstep⟩
    · rw [hstep]
      cases hvalue : a.value with
      | error fault => exact ⟨.failed (htried.concat ht (hvalue ▸ hread)), hs⟩
      | ok round => exact ⟨.answered htried ht (hvalue ▸ hread), hs⟩
    · rw [hstep, hfault]
      exact ⟨.switching (htried.concat ht (hfault ▸ hread)), hs⟩
  | @switching avoid fault ps =>
    have htried : Tried providers n address deeds := by
      cases h with
      | switching htried => exact htried
    obtain ⟨probes, -, rfl⟩ := Option.map_eq_some_iff.mp he
    rw [heard, List.append_nil]
    cases hbest : Probe.bestAvoiding avoid probes with
    | none =>
      rw [FailoverCall.step_probes_none r.tunables.failover fault
        (r.selector.settle_of_none n hbest r.moment)]
      exact ⟨.failed htried, hs⟩
    | some probe =>
      obtain ⟨a, s', hsettle, -, -, hserves, -⟩ :=
        Selector.settle_of_some (fun _ => hs.serves) hbest r.moment
      have hcoherent := hs.settle n avoid probes r.moment
      rw [hsettle] at hcoherent
      rw [FailoverCall.step_probes_some r.tunables.failover fault hsettle]
      exact ⟨.pausing htried hserves.transport_network, hcoherent⟩
  | @pausing t a =>
    obtain ⟨htried, ht⟩ : Tried providers n address deeds ∧ t.network = n := by
      cases h with
      | pausing htried ht => exact ⟨htried, ht⟩
    obtain ⟨u, -, rfl⟩ := Option.map_eq_some_iff.mp he
    rw [heard, List.append_nil]
    exact ⟨.attempting htried ht, hs⟩

theorem Reached.proceed_coherent {call : FailoverCall Round}
    (h : Reached providers n address deeds call) (p : FetchRun) (phase : Fetch.Phase) (now : Moment)
    (r₁ : Relay σ) (hproviders : r₁.providers = providers) (hs : r₁.selector.Coherent) :
    let follow := (⟨n, address, phase⟩ : Fetch).follow now call
    Stands providers n address
        (deeds ++ (p.proceed follow.1 follow.2 r₁).1.fetch.written.map Deed.write)
        (p.proceed follow.1 follow.2 r₁).1 ∧
      (p.proceed follow.1 follow.2 r₁).2.selector.Coherent := by
  intro follow
  refine ⟨h.proceed hproviders p phase now, ?_⟩
  rw [(p.steady_proceed follow.1 follow.2 r₁).selector]
  exact hs

/-- **What one step of a fetch does.** -/
theorem Stands.step (h : Stands providers n address deeds p) (hr : r.providers = providers)
    (hs : r.selector.Coherent) {owner : Nat} (hstep : p.step? owner r = some (p', r')) :
    Stands providers n address (deeds ++ (p.heard r ++ p'.fetch.written.map Deed.write)) p' ∧
      r'.selector.Coherent := by
  cases h with
  | @waiting wait tried =>
    -- a permit that is there or comes, and a place in line, have no part in what is relied on
    have hbegins : Reached providers n address [] (.begin r.selector n) := reached_begin hs n
    have hadmitted (limiter : Limiter) := hbegins.proceed_coherent
      ⟨⟨n, address, .waiting⟩, wait, tried⟩ .waiting r.moment
      { r with limiter := limiter } hr hs
    have hheard : heard ⟨⟨n, address, .waiting⟩, wait, tried⟩ r = [] := rfl
    rw [hheard]
    rw [step?] at hstep
    dsimp only at hstep
    split at hstep
    · obtain ⟨limiter, -, heq⟩ := Option.map_eq_some_iff.mp hstep
      have hgoes := hadmitted limiter
      obtain ⟨rfl, rfl⟩ := Prod.ext_iff.mp heq
      exact hgoes
    · split at hstep
      · next limiter _ =>
        have hgoes := hadmitted limiter
        obtain ⟨rfl, rfl⟩ := Prod.ext_iff.mp (Option.some.inj hstep)
        exact hgoes
      · obtain ⟨rfl, rfl⟩ := Prod.mk.inj (Option.some.inj hstep)
        exact ⟨.waiting, hs⟩
  | @calling _ call wait tried hreached hfits =>
    obtain ⟨n', k, phase⟩ := call
    obtain rfl : n' = n := by cases hreached <;> rfl
    rw [step?] at hstep
    obtain ⟨e, he, heq⟩ := Option.map_eq_some_iff.mp hstep
    obtain ⟨hreached', hs'⟩ := hreached.step tried hfits hs he
    rw [← List.append_assoc]
    -- that a request came to its end is told to the world outside, which is all it changes
    have hgoes (outside : σ) := hreached'.proceed_coherent
      ⟨⟨n', address, .calling ⟨n', k, phase⟩⟩, wait, tried⟩ (.calling ⟨n', k, phase⟩) r.moment
      { r with
        outside := outside
        selector := (FailoverCall.step r.tunables.failover r.moment e ⟨n', k, phase⟩ r.selector).2 }
      hr hs'
    cases hends : wait.endsRequest with
    | false =>
      simp only [hends, Bool.false_eq_true, if_false] at heq
      obtain ⟨rfl, rfl⟩ := Prod.ext_iff.mp heq
      exact hgoes r.outside
    | true =>
      simp only [hends, if_true] at heq
      obtain ⟨rfl, rfl⟩ := Prod.ext_iff.mp heq
      exact hgoes (r.providers.readDone r.outside)
  | failed _ => cases hstep
  | stored _ _ _ => cases hstep

/-- A fetch stays the fetch of its contract. -/
theorem Stands.identity (h : Stands providers n address deeds p) :
    p.fetch.network = n ∧ p.fetch.address = address := by
  cases h <;> exact ⟨rfl, rfl⟩

theorem Tried.not_mem_call (h : Tried providers n address deeds) (call : CacheCall) :
    .call call ∉ deeds := by
  intro hd
  obtain ⟨t, fault, heq, -⟩ := h _ hd
  cases heq

theorem Reached.tried {call : FailoverCall Round} (h : Reached providers n address deeds call)
    (hcall : call.answer? = none) : Tried providers n address deeds := by
  cases h with
  | attempting htried _ => exact htried
  | switching htried => exact htried
  | pausing htried _ => exact htried
  | failed _ => cases hcall
  | answered _ _ _ => cases hcall

theorem Fits.answer?_eq_none {call : FailoverCall Round} {wait : Wait (Except Fault Round)}
    (h : Fits providers address call.phase wait) : call.answer? = none := by
  obtain ⟨n, k, phase⟩ := call
  cases h <;> rfl

/-- A fetch that has not succeeded has tried in vain. -/
theorem Stands.tried (h : Stands providers n address deeds p)
    (hp : ∀ record, p.fetch.answer? ≠ some (.ok record)) : Tried providers n address deeds := by
  cases h with
  | waiting => exact tried_nil
  | calling hreached hfits => exact hreached.tried hfits.answer?_eq_none
  | failed htried => exact htried
  | stored _ _ _ => exact absurd rfl (hp _)

/-- A fetch that has succeeded has written the round of its last read. -/
theorem Stands.stored_of_ok (h : Stands providers n address deeds p) {record : Record}
    (hp : p.fetch.answer? = some (.ok record)) :
    ∃ tried t round now, Tried providers n address tried ∧ t.network = n ∧
      providers.Reads t address (.ok round) ∧
      record = .aggregator (round.price n address now) ∧
      deeds = tried ++
        [.read t address (.ok round), .call (.put ⟨n, .chainlink, address⟩ record)] := by
  cases h with
  | waiting => cases hp
  | calling _ _ => cases hp
  | failed _ => cases hp
  | stored htried ht hread =>
    obtain rfl := Except.ok.inj (Option.some.inj hp)
    exact ⟨_, _, _, _, htried, ht, hread, rfl, rfl⟩

/-- What a fetch has written is a record of the feed it is filed for. -/
theorem Stands.isOf (h : Stands providers n address deeds p) {f : Feed} {record : Record}
    (hd : .call (.put f record) ∈ deeds) : record.IsOf f := by
  cases h with
  | waiting => cases hd
  | calling hreached hfits =>
    exact absurd hd ((hreached.tried hfits.answer?_eq_none).not_mem_call _)
  | failed htried => exact absurd hd (htried.not_mem_call _)
  | stored htried _ _ =>
    rcases List.mem_append.mp hd with hd | hd
    · exact absurd hd (htried.not_mem_call _)
    · simp only [List.mem_cons, List.not_mem_nil, or_false, reduceCtorEq, false_or,
        Deed.call.injEq, CacheCall.put.injEq] at hd
      obtain ⟨rfl, rfl⟩ := hd
      exact ⟨rfl, rfl, rfl⟩

end FetchRun

/-! ### Batches -/

namespace BatchRun

/-- What comes back to a batch in its next step. -/
def heard (b : BatchRun) (r : Relay σ) : List Deed :=
  match b.batch.phase, b.wait with
  | .asking, .outcome a => (a.now? r.now).toList.map (.ask b.batch.ids)
  | _, _ => []

/-- It is no call to the cache. -/
theorem call?_of_mem_heard {b : BatchRun} {r : Relay σ} {d : Deed} (hd : d ∈ b.heard r) :
    d.call? = none := by
  rw [heard] at hd
  split at hd
  · obtain ⟨o, -, rfl⟩ := List.mem_map.mp hd
    rfl
  · cases hd

section Stands

variable (providers : Providers σ) (symbols : String → Option String) (ids : List String)

/-- Where a batch stands after some deeds. -/
inductive Stands : List Deed → BatchRun → Prop
  /-- there was nothing to ask for, or nobody to ask -/
  | idle {wait} : Stands [] ⟨⟨ids, .finished (.ok 0)⟩, wait⟩
  /-- it has no permit yet -/
  | waiting {wait} : Stands [] ⟨⟨ids, .waiting⟩, wait⟩
  /-- it has asked -/
  | asking {a} : providers.Replies ids a.value → Stands [] ⟨⟨ids, .asking⟩, .outcome a⟩
  /-- it has failed -/
  | failed {fault wait} : providers.Replies ids (.error fault) →
      Stands [.ask ids (.error fault)] ⟨⟨ids, .finished (.error fault)⟩, wait⟩
  /-- the quotes of the reply were written, in their order -/
  | stored {quotes now wait} : providers.Replies ids (.ok quotes) →
      Stands (.ask ids (.ok quotes) :: (Batch.writes ids symbols now quotes).map Deed.write)
        ⟨⟨ids, .finished (.ok (Batch.writes ids symbols now quotes).length)⟩, wait⟩

end Stands

variable {providers : Providers σ} {symbols : String → Option String} {ids : List String}
  {deeds : List Deed} {r r' : Relay σ} {b b' : BatchRun}

theorem stands_begin (providers : Providers σ) (symbols : String → Option String)
    (hasService : Bool) (ids : List String) :
    Stands providers symbols ids [] { batch := .begin hasService ids } := by
  rw [Batch.begin]
  split
  · exact .waiting
  · exact .idle

theorem Stands.identity (h : Stands providers symbols ids deeds b) : b.batch.ids = ids := by
  cases h <;> rfl

/-- With a permit a batch asks, if there is somebody to ask. -/
theorem stands_admitted (symbols : String → Option String) (ids : List String)
    (wait : Wait (Except Fault (List Quote))) (r : Relay σ) :
    Stands r.providers symbols ids [] (admitted ⟨⟨ids, .waiting⟩, wait⟩ r).1 ∧
      r.Steady (admitted ⟨⟨ids, .waiting⟩, wait⟩ r).2 := by
  rw [admitted]
  cases hservice : r.providers.quotes with
  | none => exact ⟨.waiting, .refl r⟩
  | some service =>
    refine ⟨.asking ⟨service, r.outside, hservice, rfl⟩, ?_⟩
    exact (r.asks_outside _).steady.trans (Relay.asks_after _ (service ids r.outside).1).steady

/-- **What one step of a batch makes of it.** -/
theorem Stands.step (h : Stands providers symbols ids deeds b) (hr : r.providers = providers)
    (hsymbols : r.quoteSymbols = symbols) {owner : Nat} (hstep : b.step? owner r = some (b', r')) :
    Stands providers symbols ids (deeds ++ (b.heard r ++ (b.written r).map Deed.write)) b' ∧
      r.Steady r' := by
  subst hr hsymbols
  cases h with
  | idle => cases hstep
  | @waiting wait =>
    have hadmitted (limiter : Limiter) := stands_admitted r.quoteSymbols ids wait
      { r with limiter := limiter }
    have hsteady (limiter : Limiter) : r.Steady { r with limiter := limiter } := ⟨rfl, rfl, rfl⟩
    rw [step?] at hstep
    dsimp only at hstep
    split at hstep
    · obtain ⟨limiter, -, heq⟩ := Option.map_eq_some_iff.mp hstep
      obtain ⟨hstands, hrest⟩ := hadmitted limiter
      obtain ⟨rfl, rfl⟩ := Prod.ext_iff.mp heq
      exact ⟨hstands, (hsteady limiter).trans hrest⟩
    · split at hstep
      · next limiter _ =>
        obtain ⟨hstands, hrest⟩ := hadmitted limiter
        obtain ⟨rfl, rfl⟩ := Prod.ext_iff.mp (Option.some.inj hstep)
        exact ⟨hstands, (hsteady limiter).trans hrest⟩
      · obtain ⟨rfl, rfl⟩ := Prod.mk.inj (Option.some.inj hstep)
        exact ⟨.waiting, hsteady _⟩
  | @asking a hreply =>
    obtain ⟨reply, ho, heq⟩ := Option.map_eq_some_iff.mp hstep
    obtain ⟨rfl, rfl⟩ := Prod.mk.inj heq
    obtain ⟨-, rfl⟩ := Awaited.now?_eq_some_iff.mp ho
    simp only [heard, written, ho, Option.toList_some, List.map_cons, List.map_nil]
    refine ⟨?_, (r.steady_writeAll _).trans (Relay.steady_releasePermit _)⟩
    cases hvalue : a.value with
    | error fault => exact .failed (hvalue ▸ hreply)
    | ok quotes => exact .stored (hvalue ▸ hreply)
  | failed _ => cases hstep
  | stored _ => cases hstep

/-- A batch that has not succeeded has asked in vain, if at all. -/
theorem Stands.asked (h : Stands providers symbols ids deeds b)
    (hb : ∀ k, b.batch.answer? ≠ some (.ok k)) :
    deeds = [] ∨
      ∃ fault, deeds = [.ask ids (.error fault)] ∧ providers.Replies ids (.error fault) := by
  cases h with
  | idle => exact absurd rfl (hb 0)
  | waiting => exact .inl rfl
  | asking _ => exact .inl rfl
  | failed hreply => exact .inr ⟨_, rfl, hreply⟩
  | stored _ => exact absurd rfl (hb _)

/-- A batch that has succeeded has written the quotes of its reply that it asked for. -/
theorem Stands.stored_of_ok (h : Stands providers symbols ids deeds b) {k : Nat}
    (hb : b.batch.answer? = some (.ok k)) :
    (deeds = [] ∧ k = 0) ∨
      ∃ quotes now, providers.Replies ids (.ok quotes) ∧
        deeds = .ask ids (.ok quotes) :: (Batch.writes ids symbols now quotes).map Deed.write ∧
        k = (Batch.writes ids symbols now quotes).length := by
  cases h with
  | idle => exact .inl ⟨rfl, (Except.ok.inj (Option.some.inj hb)).symm⟩
  | waiting => cases hb
  | asking _ => cases hb
  | failed _ => cases hb
  | stored hreply =>
    exact .inr ⟨_, _, hreply, rfl, (Except.ok.inj (Option.some.inj hb)).symm⟩

/-- What a batch has written is a record of the feed it is filed for. -/
theorem Stands.isOf (h : Stands providers symbols ids deeds b) {f : Feed} {record : Record}
    (hd : .call (.put f record) ∈ deeds) : record.IsOf f := by
  cases h with
  | idle => cases hd
  | waiting => cases hd
  | asking _ => cases hd
  | failed _ => simp at hd
  | stored _ =>
    rcases List.mem_cons.mp hd with hd | hd
    · cases hd
    · obtain ⟨w, hw, heq⟩ := List.mem_map.mp hd
      obtain ⟨q, -, rfl⟩ := List.mem_map.mp hw
      obtain ⟨rfl, rfl⟩ := CacheCall.put.inj (Deed.call.inj heq)
      exact ⟨rfl, rfl, rfl⟩

end BatchRun

end PriceRelay
