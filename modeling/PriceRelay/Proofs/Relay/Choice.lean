import PriceRelay.Proofs.Relay.Requests
/-!
# Which endpoint is chosen

To choose an endpoint every candidate is probed at once, and once all probes are there the best of
them is published. What the probes tell comes from the round trips: a candidate that answers within
the time it is given is of use, and the sooner it answers the better. Candidates may be listed more
than once, so the choice is a place in the list rather than an address.

* `Trial` is a candidate with the round trip that probes it, `Providers.trials` are those of a list,
* `Trial.EarliestFastest` is the trial that should win,
* `Relay.startProbes_trials` says what the probes of some candidates tell, and when,
* `ProbeRound.publishes_earliest_fastest` that the candidate of that trial is published.
-/

namespace PriceRelay

/-! ### Trials -/

/-- A candidate, and the round trip that probes it. -/
structure Trial where
  /-- the address -/
  url : String
  /-- the round trip -/
  trip : Delayed Bool

/-- The trials of some candidates, which the world outside is asked for in their order. -/
def Providers.trials {σ : Type} (p : Providers σ) (n : NetworkId) : List String → σ → List Trial
  | [], _ => []
  | url :: urls, outside =>
    let (trip, outside) := p.roundTrip n url outside
    ⟨url, trip⟩ :: p.trials n urls outside

namespace Trial

/-- How long the candidate is waited for. -/
def wait (limit : Duration) (t : Trial) : Duration := min t.trip.delay limit

/-- The candidate answered within the time it was given. An answer in no time tells nothing. -/
def Answered (limit : Duration) (t : Trial) : Prop :=
  t.trip.value = true ∧ 0 < t.trip.delay ∧ t.trip.delay ≤ limit

/-- The candidate can be chosen: it answered, and is not to be avoided unless all that answered
are. -/
def Eligible (limit : Duration) (avoid : Option String) (trials : List Trial) (t : Trial) : Prop :=
  t.Answered limit ∧
    (some t.url ≠ avoid ∨ ∀ u ∈ trials, u.Answered limit → some u.url = avoid)

/-- The trial of the first of the fastest candidates that can be chosen. -/
def EarliestFastest (limit : Duration) (avoid : Option String) (trials : List Trial) (t : Trial) :
    Prop :=
  ∃ before later, trials = before ++ t :: later ∧ t.Eligible limit avoid trials ∧
    (∀ u ∈ before, u.Eligible limit avoid trials → t.trip.delay < u.trip.delay) ∧
    ∀ u ∈ later, u.Eligible limit avoid trials → t.trip.delay ≤ u.trip.delay

theorem EarliestFastest.answered {limit : Duration} {avoid : Option String} {trials : List Trial}
    {t : Trial} (h : EarliestFastest limit avoid trials t) : t.Answered limit := by
  obtain ⟨before, later, -, heligible, -⟩ := h
  exact heligible.1

/-- What a probe tells of it. -/
def probe (n : NetworkId) (limit : Duration) (t : Trial) : Probe :=
  ⟨n, t.url, if t.trip.delay ≤ limit ∧ t.trip.value = true then some t.trip.delay else none⟩

variable {n : NetworkId} {limit : Duration} {avoid : Option String} {trials : List Trial}
  {t : Trial}

theorem speed_probe_eq_some_iff {d : Duration} :
    (t.probe n limit).speed = some d ↔ t.Answered limit ∧ t.trip.delay = d := by
  rw [Probe.speed_eq_some_iff, probe, Answered]
  constructor
  · rintro ⟨hlatency, hd⟩
    obtain ⟨⟨hlimit, hvalue⟩, hdelay⟩ := Option.ite_none_right_eq_some.mp hlatency
    obtain rfl := Option.some.inj hdelay
    exact ⟨⟨hvalue, Nat.pos_of_ne_zero hd, hlimit⟩, rfl⟩
  · rintro ⟨⟨hvalue, hdelay, hlimit⟩, rfl⟩
    exact ⟨if_pos ⟨hlimit, hvalue⟩, Nat.ne_of_gt hdelay⟩

theorem isHealthy_probe_iff : (t.probe n limit).isHealthy = true ↔ t.Answered limit := by
  rw [Probe.isHealthy, Option.isSome_iff_exists]
  simp only [speed_probe_eq_some_iff, exists_and_left, exists_eq', and_true]

theorem speed_probe_eq_none_iff : (t.probe n limit).speed = none ↔ ¬ t.Answered limit := by
  rw [Probe.speed_eq_none_iff, isHealthy_probe_iff]

theorem eligible_iff : t.Eligible limit avoid trials ↔ t.Answered limit ∧
    ((∃ u ∈ trials, some u.url ≠ avoid ∧ u.Answered limit) → some t.url ≠ avoid) := by
  rw [Eligible]
  refine and_congr_right fun hanswered => ?_
  constructor
  · rintro (hother | hall) ⟨u, hu, hne, hu'⟩
    · exact hother
    · exact absurd (hall u hu hu') hne
  · intro h
    by_cases hother : ∃ u ∈ trials, some u.url ≠ avoid ∧ u.Answered limit
    · exact .inl (h hother)
    · exact .inr fun u hu hu' => by_contra fun hne => hother ⟨u, hu, hne, hu'⟩

/-- The first of the fastest among those that can be chosen should win. -/
theorem earliestFastest_of_filter {p : Trial → Bool}
    (hp : ∀ u, Eligible limit avoid trials u ↔ u.Answered limit ∧ p u = true)
    (h : Probe.FirstFastest (probe n limit) (trials.filter p) t) :
    EarliestFastest limit avoid trials t := by
  obtain ⟨before, later, d, heq, hpt, hd, hbefore, hlater⟩ := h.of_filter
  obtain ⟨hanswered, rfl⟩ := speed_probe_eq_some_iff.mp hd
  refine ⟨before, later, heq, (hp t).mpr ⟨hanswered, hpt⟩, fun u hu heligible => ?_,
    fun u hu heligible => ?_⟩
  · obtain ⟨hu', hpu⟩ := (hp u).mp heligible
    exact hbefore u hu hpu _ (speed_probe_eq_some_iff.mpr ⟨hu', rfl⟩)
  · obtain ⟨hu', hpu⟩ := (hp u).mp heligible
    exact hlater u hu hpu _ (speed_probe_eq_some_iff.mpr ⟨hu', rfl⟩)

/-- **The choice is the trial that should win**, if there is one. -/
theorem fastestAvoiding_spec (n : NetworkId) (limit : Duration) (avoid : Option String)
    (trials : List Trial) :
    (Probe.fastestAvoiding (probe n limit) avoid trials = none ∧
        ∀ t ∈ trials, ¬ t.Answered limit) ∨
      ∃ t, Probe.fastestAvoiding (probe n limit) avoid trials = some t ∧
        EarliestFastest limit avoid trials t := by
  have hother_iff : (∃ u ∈ trials, some (u.probe n limit).url ≠ avoid ∧
      (u.probe n limit).isHealthy = true) ↔
        ∃ u ∈ trials, some u.url ≠ avoid ∧ u.Answered limit := by
    simp only [isHealthy_probe_iff]
    rfl
  rw [Probe.fastestAvoiding_eq_ite]
  split
  · next hhealthy =>
    have hother := hother_iff.mp hhealthy
    cases hchoice : Probe.fastest (probe n limit)
        (trials.filter fun t => some (t.probe n limit).url ≠ avoid) with
    | none =>
      obtain ⟨u, hu, hne, hanswered⟩ := hother
      have hnone := Probe.fastest_eq_none_iff.mp hchoice u
        (List.mem_filter.mpr ⟨hu, decide_eq_true hne⟩)
      exact absurd hanswered (speed_probe_eq_none_iff.mp hnone)
    | some t =>
      refine .inr ⟨t, rfl, earliestFastest_of_filter (fun u => ?_)
        (Probe.fastest_eq_some_iff.mp hchoice)⟩
      rw [eligible_iff, decide_eq_true_eq]
      exact and_congr_right fun _ => ⟨fun h => h hother, fun h _ => h⟩
  · next hhealthy =>
    have hother := mt hother_iff.mpr hhealthy
    cases hchoice : Probe.fastest (probe n limit) trials with
    | none =>
      exact .inl ⟨rfl, fun t ht => speed_probe_eq_none_iff.mp
        (Probe.fastest_eq_none_iff.mp hchoice t ht)⟩
    | some t =>
      have hall : trials.filter (fun _ => true) = trials := List.filter_true trials
      rw [← hall] at hchoice
      refine .inr ⟨t, rfl, earliestFastest_of_filter (fun u => ?_)
        (Probe.fastest_eq_some_iff.mp hchoice)⟩
      rw [eligible_iff]
      exact and_congr_right fun _ => iff_of_true (fun h => absurd h hother) rfl

end Trial

/-! ### Probing and publishing -/

namespace Relay

variable {σ : Type}

/-- A probe tells what its trial does, when the candidate is no longer waited for. -/
theorem startProbe_eq (r : Relay σ) (n : NetworkId) (url : String) :
    let t : Trial := ⟨url, (r.providers.roundTrip n url r.outside).1⟩
    r.startProbe n url =
      { r with outside := (r.providers.roundTrip n url r.outside).2 }.after
        ⟨t.wait r.tunables.probeTimeout, t.probe n r.tunables.probeTimeout⟩ := by
  simp only [startProbe, Trial.wait, Trial.probe]
  split
  · next hle => simp only [hle, true_and, Nat.min_eq_left]
  · next hlt => simp only [hlt, false_and, if_false, Nat.min_eq_right (Nat.le_of_not_le hlt)]

/-- **Each candidate is probed at once, and each probe tells what its trial does.** -/
theorem startProbes_trials (r : Relay σ) (n : NetworkId) (urls : List String) :
    (r.startProbes n urls).1.map (fun a => (a.due, a.value)) =
      (r.providers.trials n urls r.outside).map fun t =>
        (r.now + t.wait r.tunables.probeTimeout, t.probe n r.tunables.probeTimeout) := by
  induction urls generalizing r with
  | nil => rfl
  | cons url urls ih =>
    rw [startProbes, List.map_cons, ih, startProbe_eq]
    rfl

/-- The probes are there when no candidate is waited for any more, and then tell what the trials
do. -/
theorem mapM_startProbes_eq_some_iff {r : Relay σ} {n : NetworkId} {urls : List String}
    {now : Duration} {ps : List Probe} :
    (r.startProbes n urls).1.mapM (Awaited.now? · now) = some ps ↔
      (∀ t ∈ r.providers.trials n urls r.outside,
        r.now + t.wait r.tunables.probeTimeout ≤ now) ∧
        (r.providers.trials n urls r.outside).map (Trial.probe n r.tunables.probeTimeout) = ps := by
  have hdues := congrArg (List.map Prod.fst) (r.startProbes_trials n urls)
  have hvalues := congrArg (List.map Prod.snd) (r.startProbes_trials n urls)
  simp only [List.map_map, Function.comp_def] at hdues hvalues
  rw [Awaited.mapM_now?_eq_some_iff, hvalues]
  refine and_congr_left fun _ => ?_
  rw [← List.forall_mem_map (f := Awaited.due) (P := (· ≤ now)), hdues, List.forall_mem_map]

end Relay

namespace ProbeRound

variable {σ : Type}

/-- An address was published: the table tells it, with the time that its round trip took, and the
choice is over and has given the handle beside it. -/
structure Published (n : NetworkId) (t : Trial) (r : Relay σ) (outcome : ProbeRound × Relay σ) :
    Prop where
  /-- the table tells it -/
  told : outcome.2.selector.endpoint? n = some ⟨t.url, n, t.trip.delay, r.moment⟩
  /-- the choice has given the handle -/
  answer : ∃ handle, outcome.2.selector.bestTransport n = .ok handle ∧
    outcome.1 = .done (.ok (some handle))
  /-- nothing else has changed -/
  published : outcome.2 = { r with
    selector := (r.selector.publish n t.url t.trip.delay r.moment).2 }

theorem begin_of_candidates {r : Relay σ} {n : NetworkId} (h : r.selector.candidates n ≠ [])
    (avoid : Option String) : begin n avoid r =
      (.probing n avoid (r.startProbes n (r.selector.candidates n)).1,
        (r.startProbes n (r.selector.candidates n)).2) := by
  rw [begin, Selector.toProbe]
  cases hcandidates : r.selector.candidates n with
  | nil => exact absurd hcandidates h
  | cons url urls => rfl

/-- A choice that is looked at too early stays as it is. -/
theorem poll_of_waiting {r r' : Relay σ} {n : NetworkId} (h : r.selector.candidates n ≠ [])
    (avoid : Option String) {t : Trial}
    (ht : t ∈ r.providers.trials n (r.selector.candidates n) r.outside)
    (hwaiting : r'.now < r.now + t.wait r.tunables.probeTimeout) :
    poll (begin n avoid r).1 r' = ((begin n avoid r).1, r') := by
  rw [begin_of_candidates h, poll]
  split
  · rfl
  · next ps hthere =>
    have hover := (Relay.mapM_startProbes_eq_some_iff.mp hthere).1 t ht
    exact absurd hwaiting (Nat.not_lt.mpr hover)

/-- Once no candidate is waited for any more, what the trials tell is settled. -/
theorem poll_of_over {r r' : Relay σ} {n : NetworkId} (h : r.selector.candidates n ≠ [])
    (avoid : Option String)
    (hover : ∀ t ∈ r.providers.trials n (r.selector.candidates n) r.outside,
      r.now + t.wait r.tunables.probeTimeout ≤ r'.now) :
    poll (begin n avoid r).1 r' =
      let settled := r'.selector.settle n avoid
        ((r.providers.trials n (r.selector.candidates n) r.outside).map
          (Trial.probe n r.tunables.probeTimeout)) r'.moment
      (.done (.ok settled.1), { r' with selector := settled.2 }) := by
  rw [begin_of_candidates h, poll, Relay.mapM_startProbes_eq_some_iff.mpr ⟨hover, rfl⟩]

/-- What is settled is the candidate of the trial that should win. -/
theorem settle_trials (s : Selector) (n : NetworkId) (avoid : Option String) (limit : Duration)
    (trials : List Trial) (now : Moment) :
    ((∀ t ∈ trials, ¬ t.Answered limit) ∧
        s.settle n avoid (trials.map (Trial.probe n limit)) now = (none, s)) ∨
      ∃ t : Trial, t.EarliestFastest limit avoid trials ∧
        s.settle n avoid (trials.map (Trial.probe n limit)) now =
          (some (s.publish n t.url t.trip.delay now).1,
            (s.publish n t.url t.trip.delay now).2) := by
  rw [Selector.settle, Probe.bestAvoiding_map]
  obtain ⟨hchoice, hnone⟩ | ⟨t, hchoice, hwins⟩ :=
    Trial.fastestAvoiding_spec n limit avoid trials
  · rw [hchoice]
    exact .inl ⟨hnone, rfl⟩
  · rw [hchoice]
    have hlatency : (t.probe n limit).latency = some t.trip.delay :=
      (Probe.speed_eq_some_iff.mp (Trial.speed_probe_eq_some_iff.mpr ⟨hwins.answered, rfl⟩)).1
    refine .inr ⟨t, hwins, ?_⟩
    simp only [Option.map_some, hlatency, Option.getD_some]
    rfl

theorem published_of_publish {r : Relay σ} {n : NetworkId} {t : Trial} :
    Published n t r
      (.done (.ok (some (r.selector.publish n t.url t.trip.delay r.moment).1)),
        { r with
          selector := (r.selector.publish n t.url t.trip.delay r.moment).2 }) where
  told := by
    rw [Selector.endpoint?, Selector.get?_publish, if_pos rfl]
    rfl
  answer := by
    refine ⟨_, ?_, rfl⟩
    rw [Selector.bestTransport, Selector.get?_publish, if_pos rfl]
    rfl
  published := rfl

/-- **The fastest is chosen, and of two equally fast ones the first.** Among the probes of any
endpoints one is chosen exactly if one of them took some time: the first of those that took least.
If an address is to be avoided, the choice is among the probes of other addresses if one of them is
of use, and else among all. (`Probe.best` and `Probe.bestAvoiding` choose among bare probes.)

So a choice asks all candidates at once and waits until each has answered or has run out of its
time. Then the address of the first of the fastest that can be chosen is published, and nothing if
none has answered; that a handle to it can be made is what `Selector.connect` assumes. -/
theorem publishes_earliest_fastest :
    (∀ {α : Type} (probe : α → Probe) (xs : List α),
      (Probe.fastest probe xs = none ↔
        ¬ ∃ x ∈ xs, ∃ d, (probe x).latency = some d ∧ 0 < d) ∧
      (∀ x, Probe.fastest probe xs = some x ↔ Probe.FirstFastest probe xs x) ∧
      ∀ avoid, Probe.fastestAvoiding probe avoid xs =
        if ∃ x ∈ xs, some (probe x).url ≠ avoid ∧ (probe x).isHealthy = true then
          Probe.fastest probe (xs.filter fun x => some (probe x).url ≠ avoid)
        else Probe.fastest probe xs) ∧
    ∀ {σ : Type} (r : Relay σ) (n : NetworkId) (avoid : Option String),
      let limit := r.tunables.probeTimeout
      let trials := r.providers.trials n (r.selector.candidates n) r.outside
      (r.selector.candidates n = [] → begin n avoid r = (.done (.error (.noTransport n)), r)) ∧
      (r.selector.candidates n ≠ [] → r.Asks (begin n avoid r).2 ∧ ∀ r' : Relay σ,
        ((∃ t ∈ trials, r'.now < r.now + t.wait limit) →
          poll (begin n avoid r).1 r' = ((begin n avoid r).1, r')) ∧
        ((∀ t ∈ trials, r.now + t.wait limit ≤ r'.now) →
          ((∀ t ∈ trials, ¬ t.Answered limit) ∧
            poll (begin n avoid r).1 r' = (.done (.ok none), r')) ∨
          ∃ t : Trial, t.EarliestFastest limit avoid trials ∧
            Published n t r' (poll (begin n avoid r).1 r'))) := by
  refine ⟨fun probe xs => ⟨?_, fun x => Probe.fastest_eq_some_iff,
    fun avoid => Probe.fastestAvoiding_eq_ite probe avoid xs⟩, fun r n avoid => ⟨?_, ?_⟩⟩
  · rw [Probe.fastest_eq_none_iff]
    simp only [Probe.speed_eq_none_iff, Probe.isHealthy_iff, not_exists, not_and]
  · intro hnil
    rw [begin, Selector.toProbe, hnil]
  · intro hcandidates
    refine ⟨?_, fun r' => ⟨?_, fun hover => ?_⟩⟩
    · rw [begin_of_candidates hcandidates]
      exact r.asks_startProbes n _
    · rintro ⟨t, ht, hwaiting⟩
      exact poll_of_waiting hcandidates avoid ht hwaiting
    · rw [poll_of_over hcandidates avoid hover]
      obtain ⟨hnone, hsettled⟩ | ⟨t, hwins, hsettled⟩ := settle_trials r'.selector n avoid
        r.tunables.probeTimeout (r.providers.trials n (r.selector.candidates n) r.outside) r'.moment
      · rw [hsettled]
        exact .inl ⟨hnone, rfl⟩
      · rw [hsettled]
        exact .inr ⟨t, hwins, published_of_publish⟩

/-- Two candidates tie behind the fastest one, by half a millisecond, and the first of them is
listed once more. One does not answer. -/
def tied : Relay Unit where
  providers := {
    roundTrip := fun _ url s =>
      (⟨if url = "http://a" then .ofMicros 4200 else .ofMicros 4700, url ≠ "http://d"⟩, s)
    readRound := fun _ _ s => (⟨0, .error (.remote "no contract")⟩, s)
    readDone := fun s => s
    quotes := none }
  outside := ()
  selector := .ofLists [(1, ["http://a", "http://d", "http://b", "http://c", "http://b"])]
  cache := { cap := 1000, policy := ⟨"none", fun _ => []⟩ }
  limiter := .ofCount 1

/-- Where the fastest one is to be avoided, the first of those that tie is published. -/
theorem publishes_earliest_fastest_at_tie :
    let trials := tied.providers.trials 1 (tied.selector.candidates 1) ()
    tied.selector.candidates 1 ≠ [] ∧
      (∀ t ∈ trials, 0 + t.wait (.ofSeconds 5) ≤ .ofMicros 4700) ∧
      ∃ t : Trial, t.EarliestFastest (.ofSeconds 5) (some "http://a") trials ∧ t.url = "http://b" ∧
        Published 1 t { tied with now := .ofMicros 4700 }
          (poll (begin 1 (some "http://a") tied).1 { tied with now := .ofMicros 4700 }) := by
  intro trials
  have hcandidates : tied.selector.candidates 1 ≠ [] := by decide +kernel
  have hover : ∀ t ∈ trials, 0 + t.wait (.ofSeconds 5) ≤ .ofMicros 4700 := by decide +kernel
  have hurl : (poll (begin 1 (some "http://a") tied).1
      { tied with now := .ofMicros 4700 }).2.selector.currentUrl 1 = some "http://b" := by
    decide +kernel
  have hchoice := (publishes_earliest_fastest.2 tied 1 (some "http://a")).2 hcandidates
  obtain ⟨-, hnone⟩ | ⟨t, hwins, hpublished⟩ :=
    (hchoice.2 { tied with now := .ofMicros 4700 }).2 hover
  · rw [hnone] at hurl
    cases hurl
  · refine ⟨hcandidates, hover, t, hwins, ?_, hpublished⟩
    rw [Selector.currentUrl, hpublished.told] at hurl
    exact Option.some.inj hurl

end ProbeRound

end PriceRelay
