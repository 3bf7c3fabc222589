import PriceRelay.Proofs.Endpoint.Switchboard
import PriceRelay.Relay.Rounds
/-!
# What waiting takes

To wait for something the relay asks the world outside and sets up timers, and changes nothing else.

* `Relay.Asks` says that nothing else has changed, `Relay.asks_await` that this is all a call does
  to wait,
* `Relay.startProbes_values` says that the candidates are probed in their order,
* `Awaited.mapM_now?_eq_some_iff` says when all of them are there, `Wait.event?_outcome` and its
  like what happens then to a call that waits,
* `ProbeRound.begin_cases` and `ProbeRound.selector_poll` relate a choice of the relay to the moves
  of a `Switchboard`.
-/

namespace PriceRelay

variable {σ α : Type}

namespace Relay

/-- Nothing but the world outside and the count of timers may have changed. -/
def Asks (r r' : Relay σ) : Prop :=
  ∃ outside stamps, r' = { r with outside := outside, stamps := stamps }

theorem Asks.refl (r : Relay σ) : r.Asks r := ⟨r.outside, r.stamps, rfl⟩

theorem Asks.trans {r r' r'' : Relay σ} (h : r.Asks r') (h' : r'.Asks r'') : r.Asks r'' := by
  obtain ⟨outside, stamps, rfl⟩ := h
  obtain ⟨outside', stamps', rfl⟩ := h'
  exact ⟨outside', stamps', rfl⟩

theorem asks_after (r : Relay σ) (d : Delayed α) : r.Asks (r.after d).2 :=
  ⟨r.outside, r.stamps + 1, rfl⟩

theorem asks_outside (r : Relay σ) (outside : σ) : r.Asks { r with outside := outside } :=
  ⟨outside, r.stamps, rfl⟩

/-- A probe is there after a while, whatever it tells. -/
theorem startProbe_eq_after (r : Relay σ) (n : NetworkId) (url : String) :
    ∃ outside delay answer, r.startProbe n url =
      { r with outside := outside }.after ⟨delay, (⟨n, url, answer⟩ : Probe)⟩ := by
  simp only [startProbe]
  split
  · exact ⟨_, _, _, rfl⟩
  · exact ⟨_, _, none, rfl⟩

theorem asks_startProbe (r : Relay σ) (n : NetworkId) (url : String) :
    r.Asks (r.startProbe n url).2 := by
  obtain ⟨outside, delay, answer, h⟩ := startProbe_eq_after r n url
  rw [h]
  exact (asks_outside r outside).trans (asks_after _ _)

theorem asks_startProbes (r : Relay σ) (n : NetworkId) (urls : List String) :
    r.Asks (r.startProbes n urls).2 := by
  induction urls generalizing r with
  | nil => exact .refl r
  | cons url urls ih => exact (asks_startProbe r n url).trans (ih _)

/-- **To wait for what comes next, a call only asks.** -/
theorem asks_await (op : Operation σ α) (call : FailoverCall α) (tried : List Transport)
    (r : Relay σ) : r.Asks (r.await op call tried).2.2 := by
  rw [await]
  split
  · next t _ =>
    exact (asks_outside r (op.start tried.length t r.outside).2).trans
      (asks_after _ (op.start tried.length t r.outside).1)
  · exact asks_startProbes r _ _
  · exact asks_after r ⟨r.tunables.failover.retryDelay, ()⟩
  · exact .refl r

/-! ### Probes -/

/-- **Each address is probed, in their order.** -/
theorem startProbes_values (r : Relay σ) (n : NetworkId) (urls : List String) :
    ∃ answers : Nat → Option Duration, (r.startProbes n urls).1.map Awaited.value =
      urls.mapIdx fun i url => ⟨n, url, answers i⟩ := by
  induction urls generalizing r with
  | nil => exact ⟨fun _ => none, rfl⟩
  | cons url urls ih =>
    obtain ⟨outside, delay, answer, hfirst⟩ := startProbe_eq_after r n url
    obtain ⟨answers, hrest⟩ := ih (r.startProbe n url).2
    refine ⟨fun i => i.casesOn answer answers, ?_⟩
    rw [startProbes, List.map_cons, List.mapIdx_cons, hrest, hfirst]
    rfl

/-- To probe the candidates of a network is to get an answer, or none, from each. -/
theorem startProbes_candidates (r : Relay σ) (n : NetworkId) :
    ∃ answers, (r.startProbes n (r.selector.candidates n)).1.map Awaited.value =
      r.selector.probes n answers :=
  startProbes_values r n _

end Relay

/-! ### What is there -/

namespace Awaited

theorem now?_eq_some_iff {a : Awaited α} {now : Duration} {x : α} :
    a.now? now = some x ↔ a.due ≤ now ∧ a.value = x := by
  rw [now?]
  split
  · next hdue => rw [Option.some.injEq, and_iff_right hdue]
  · next hdue => exact iff_of_false (fun h => (nomatch h)) fun h => hdue h.1

/-- Some things are there once each of them is. -/
theorem mapM_now?_eq_some_iff {as : List (Awaited α)} {now : Duration} {xs : List α} :
    as.mapM (now? · now) = some xs ↔ (∀ a ∈ as, a.due ≤ now) ∧ as.map value = xs := by
  induction as generalizing xs with
  | nil =>
    rw [List.mapM_nil, List.map_nil]
    exact ⟨fun h => ⟨fun a ha => (nomatch ha), Option.some.inj h⟩, fun h => congrArg some h.2⟩
  | cons a as ih =>
    simp only [List.mapM_cons, Option.bind_eq_bind, Option.bind_eq_some_iff, now?_eq_some_iff, ih,
      List.forall_mem_cons, List.map_cons, Option.pure_def, Option.some.injEq]
    constructor
    · rintro ⟨x, ⟨hdue, rfl⟩, _, ⟨hrest, rfl⟩, rfl⟩
      exact ⟨⟨hdue, hrest⟩, rfl⟩
    · rintro ⟨⟨hdue, hrest⟩, rfl⟩
      exact ⟨a.value, ⟨hdue, rfl⟩, _, ⟨hrest, rfl⟩, rfl⟩

end Awaited

namespace Wait

variable {now : Duration}

/-- A request that is there has an outcome. -/
theorem event?_outcome {a : Awaited (Except Fault α)} (h : a.due ≤ now) :
    (outcome a).event? now = some (.outcome a.value) := by
  rw [event?, Awaited.now?_eq_some_iff.mpr ⟨h, rfl⟩]
  rfl

/-- Probes that are all there end a switch. -/
theorem event?_probes {ps : List (Awaited Probe)} (h : ∀ p ∈ ps, p.due ≤ now) :
    (probes ps : Wait (Except Fault α)).event? now = some (.probes (ps.map Awaited.value)) := by
  rw [event?, Awaited.mapM_now?_eq_some_iff.mpr ⟨h, rfl⟩]
  rfl

/-- A pause that is there is over. -/
theorem event?_pause {a : Awaited Unit} (h : a.due ≤ now) :
    (pause a : Wait (Except Fault α)).event? now = some .pauseOver := by
  rw [event?, Awaited.now?_eq_some_iff.mpr ⟨h, rfl⟩]
  rfl

end Wait

/-! ### Choices under way -/

namespace ProbeRound

variable {r : Relay σ} {n : NetworkId} {avoid : Option String}

/-- A choice begins by asking the candidates; without one it is over. -/
theorem begin_cases (r : Relay σ) (n : NetworkId) (avoid : Option String) :
    (r.selector.candidates n = [] ∧ begin n avoid r = (.done (.error (.noTransport n)), r)) ∨
      ∃ ps answers, (begin n avoid r).1 = .probing n avoid ps ∧ r.Asks (begin n avoid r).2 ∧
        ps.map Awaited.value = r.selector.probes n answers := by
  rw [begin, Selector.toProbe]
  cases hcandidates : r.selector.candidates n with
  | nil => exact .inl ⟨rfl, rfl⟩
  | cons url urls =>
    obtain ⟨answers, hanswers⟩ := r.startProbes_candidates n
    rw [hcandidates] at hanswers
    exact .inr ⟨_, answers, rfl, r.asks_startProbes n _, hanswers⟩

/-- **A choice is settled in one move.** Looked at, it stays as it is until all probes are there,
and then does to the selector what the board does. -/
theorem selector_poll {b : Switchboard} (hb : b.selector = r.selector) {choice : Nat}
    (hunderway : b.underway n choice = some avoid) {ps : List (Awaited Probe)}
    {answers : Nat → Option Duration} (hps : ps.map Awaited.value = r.selector.probes n answers) :
    poll (.probing n avoid ps) r = (.probing n avoid ps, r) ∨
      (poll (.probing n avoid ps) r).2.selector =
        (b.move (.probed n choice answers r.moment)).selector := by
  cases hthere : ps.mapM (Awaited.now? · r.now) with
  | none => exact .inl (by rw [poll, hthere])
  | some probes =>
    obtain ⟨-, rfl⟩ := Awaited.mapM_now?_eq_some_iff.mp hthere
    refine .inr ?_
    rw [poll, hthere, Switchboard.move, hunderway, hps, hb]

end ProbeRound

end PriceRelay
