import PriceRelay.Proofs.Failover
import PriceRelay.Proofs.Relay.Requests
/-!
# What comes of a call

A call runs an operation, and if that fails in the right way it switches to another endpoint, pauses
and runs the operation again, until it succeeds, fails otherwise, cannot switch or has no retry
left. All the while others go on: the clock runs and other networks are switched. As long as they
leave the network of the call alone, everything about the call follows from how the attempts and
the probes turn out.

* `CallRun.Course` are the runs of a call among others,
* `Detour` is a failed attempt with its switch and its pause, `CallRun.Route` says how detours lead
  from endpoint to endpoint,
* `CallRun.Stands` says where a call stands after some detours, `CallRun.Stands.advance` what one
  step makes of it, and `CallRun.Course.accounts` that every run keeps to it,
* `CallRun.Course.poll` says that looking at a call is such a run, and goes on as far as it can,
* `CallRun.followed` is what comes of a call.
-/

namespace PriceRelay

variable {σ α : Type}

/-- The operation, begun over a handle after it was begun `k` times before, may turn out so. -/
def Operation.Yields (op : Operation σ α) (k : Nat) (t : Transport) (outcome : Except Fault α) :
    Prop :=
  ∃ outside, (op.start k t outside).1.value = outcome

/-- Others have gone on for a while, and have left a network alone. -/
structure Relay.Spares (n : NetworkId) (r r' : Relay σ) : Prop where
  /-- time has passed -/
  now_le : r.now ≤ r'.now
  /-- the tunables are what they were -/
  tunables : r'.tunables = r.tunables
  /-- so are the candidates of the network -/
  candidates : r'.selector.candidates n = r.selector.candidates n
  /-- and its entry -/
  entry : r'.selector.table.get? n = r.selector.table.get? n

/-- A failed attempt, and the switch and the pause after it. -/
structure Detour where
  /-- the handle it was made over -/
  transport : Transport
  /-- how it failed -/
  fault : Fault
  /-- what each candidate answered -/
  answers : Nat → Option Duration
  /-- when it failed -/
  failed : Nat
  /-- when the switch was settled -/
  settled : Nat
  /-- when the pause was over -/
  resumed : Nat

/-- What happens to the call, and when. -/
def Detour.events (s : Selector) (n : NetworkId) (d : Detour) :
    List (Duration × FailoverCall.Event α) :=
  [(d.failed, .outcome (.error d.fault)), (d.settled, .probes (s.probes n d.answers)),
    (d.resumed, .pauseOver)]

namespace CallRun

variable (op : Operation σ α) (n : NetworkId) (r₀ : Relay σ)

/-- The runs of a call that begins at `r₀`, with its events so far. Between two events others go
on. -/
inductive Course : List (Duration × FailoverCall.Event α) → CallRun α → Relay σ → Prop
  /-- it begins -/
  | begin : Course [] (begin op n r₀).1 (begin op n r₀).2
  /-- others go on -/
  | others {events c r r'} : Course events c r → r.Spares n r' → Course events c r'
  /-- the call goes on -/
  | step {events c r c' r' e} : Course events c r → c.wait.event? r.now = some e →
      c.step? op r = some (c', r') → Course (events ++ [(r.now, e)]) c' r'

/-- An attempt fails in a way that asks for another endpoint, and may be made again. -/
structure FailsOver (k : Nat) (t : Transport) (fault : Fault) : Prop where
  /-- it fails -/
  yields : op.Yields k t (.error fault)
  /-- in a way that asks for another endpoint -/
  signal : fault.isFailover = true
  /-- and there is a retry left -/
  retry : k < r₀.tunables.failover.maxRetries.toNat

/-- The way of a call, from the endpoint that the table holds at its start over those that its
switches choose. -/
inductive Route : List Detour → Transport → Prop
  /-- the first attempt is made over the endpoint in the table -/
  | direct {a} : r₀.selector.table.get? n = some a → Route [] a.transport
  /-- and the next one, after the pause, over the one that is chosen when the last is avoided -/
  | detour {ds d p next} : Route ds d.transport →
      FailsOver op r₀ ds.length d.transport d.fault →
      Probe.bestAvoiding (some d.transport.url) (r₀.selector.probes n d.answers) = some p →
      next.url = p.url → d.settled + r₀.tunables.failover.retryDelay ≤ d.resumed →
      Route (ds ++ [d]) next

variable {op n r₀}

theorem Route.length_le {ds : List Detour} {t : Transport} (h : Route op n r₀ ds t) :
    ds.length ≤ r₀.tunables.failover.maxRetries.toNat := by
  cases h with
  | direct _ => exact Nat.zero_le _
  | detour _ hfails _ _ _ =>
    rw [List.length_append]
    exact hfails.retry

variable (op n r₀)

/-- Where a call stands after some detours: what has happened since, the call, and the entry of its
network. -/
inductive Stands (ds : List Detour) (t : Transport) :
    List (Duration × FailoverCall.Event α) → CallRun α → ActiveEndpoint → Prop
  /-- the attempt is under way -/
  | attempting {k w a} : k.toNat = ds.length + 1 → op.Yields ds.length t w.value →
      a.transport = t → (ds = [] → r₀.selector.table.get? n = some a) →
      Stands ds t [] ⟨⟨n, k, .attempting t⟩, .outcome w, ds.map Detour.transport ++ [t]⟩ a
  /-- the attempt has failed, and the candidates are being probed -/
  | switching {k fault time ps answers a} : k.toNat = ds.length + 1 →
      FailsOver op r₀ ds.length t fault →
      ps.map Awaited.value = r₀.selector.probes n answers →
      a.transport = t → (ds = [] → r₀.selector.table.get? n = some a) →
      Stands ds t [(time, .outcome (.error fault))]
        ⟨⟨n, k, .switching (some t.url) fault⟩, .probes ps, ds.map Detour.transport ++ [t]⟩ a
  /-- the switch was made, and the call pauses -/
  | pausing {k fault time time' answers p w a} : k.toNat = ds.length + 1 →
      FailsOver op r₀ ds.length t fault →
      Probe.bestAvoiding (some t.url) (r₀.selector.probes n answers) = some p →
      a.transport.url = p.url → w.due = time' + r₀.tunables.failover.retryDelay →
      Stands ds t [(time, .outcome (.error fault)), (time', .probes (r₀.selector.probes n answers))]
        ⟨⟨n, k, .pausing a.transport⟩, .pause w, ds.map Detour.transport ++ [t]⟩ a
  /-- the attempt has come to its end, and with it the call -/
  | finished {k answer time a} : op.Yields ds.length t answer →
      (∀ fault, answer = .error fault → FailsOver op r₀ ds.length t fault →
        r₀.selector.candidates n = []) →
      a.transport = t → (ds = [] → r₀.selector.table.get? n = some a) →
      Stands ds t [(time, .outcome answer)]
        ⟨⟨n, k, .finished answer⟩, .nothing, ds.map Detour.transport ++ [t]⟩ a
  /-- the attempt has failed, and no switch could be made -/
  | stranded {k fault time time' answers a} : FailsOver op r₀ ds.length t fault →
      Probe.bestAvoiding (some t.url) (r₀.selector.probes n answers) = none →
      a.transport = t → (ds = [] → r₀.selector.table.get? n = some a) →
      Stands ds t [(time, .outcome (.error fault)), (time', .probes (r₀.selector.probes n answers))]
        ⟨⟨n, k, .finished (.error fault)⟩, .nothing, ds.map Detour.transport ++ [t]⟩ a

/-- What a call relies on is as it was, except for the entry of its network. -/
structure Keeps (r : Relay σ) (a : ActiveEndpoint) : Prop where
  /-- the tunables are what they were -/
  tunables : r.tunables = r₀.tunables
  /-- so are the candidates of the network -/
  candidates : r.selector.candidates n = r₀.selector.candidates n
  /-- the table has an entry for the network -/
  entry : r.selector.table.get? n = some a
  /-- which tells nothing untrue -/
  serves : a.Serves n

variable {op n r₀} {r r' : Relay σ} {a : ActiveEndpoint}

theorem Keeps.spares (h : Keeps n r₀ r a) (hr : r.Spares n r') : Keeps n r₀ r' a where
  tunables := hr.tunables.trans h.tunables
  candidates := hr.candidates.trans h.candidates
  entry := hr.entry.trans h.entry
  serves := h.serves

theorem Keeps.asks (h : Keeps n r₀ r a) (hr : r.Asks r') : Keeps n r₀ r' a := by
  obtain ⟨outside, stamps, rfl⟩ := hr
  exact ⟨h.tunables, h.candidates, h.entry, h.serves⟩

theorem Keeps.probes_eq (h : Keeps n r₀ r a) (answers : Nat → Option Duration) :
    r.selector.probes n answers = r₀.selector.probes n answers := by
  rw [Selector.probes, Selector.probes, h.candidates]

theorem Keeps.currentUrl_eq (h : Keeps n r₀ r a) :
    r.selector.currentUrl n = some a.transport.url := by
  rw [Selector.currentUrl, Selector.endpoint?, h.entry, h.serves.transport_url]
  rfl

/-! ### One step -/

/-- What an event makes of a call. -/
def advance (op : Operation σ α) (e : FailoverCall.Event α) (c : CallRun α) (r : Relay σ) :
    CallRun α × Relay σ :=
  let r := if c.wait.endsRequest then { r with outside := op.done r.outside } else r
  let (call, selector) := c.call.step r.tunables.failover r.moment e r.selector
  let (wait, tried, r) := { r with selector := selector }.await op call c.tried
  (⟨call, wait, tried⟩, r)

theorem step?_of_event? {c : CallRun α} {e : FailoverCall.Event α}
    (he : c.wait.event? r.now = some e) : c.step? op r = some (c.advance op e r) := by
  rw [step?, he]
  rfl

/-- An event makes a step of the call, and then the relay asks for what the call waits for next. -/
theorem advance_eq (op : Operation σ α) {c : CallRun α} {e : FailoverCall.Event α}
    {call : FailoverCall α} {s : Selector}
    (h : c.call.step r.tunables.failover r.moment e r.selector = (call, s)) :
    ∃ r₁, { r with selector := s }.Asks r₁ ∧ c.advance op e r =
      (⟨call, (r₁.await op call c.tried).1, (r₁.await op call c.tried).2.1⟩,
        (r₁.await op call c.tried).2.2) := by
  cases hends : c.wait.endsRequest with
  | false =>
    refine ⟨{ r with selector := s }, .refl _, ?_⟩
    simp only [advance, hends, Bool.false_eq_true, if_false, h]
  | true =>
    refine ⟨{ r with selector := s, outside := op.done r.outside }, ⟨_, _, rfl⟩, ?_⟩
    have hstep : c.call.step r.tunables.failover ({ r with outside := op.done r.outside }).moment e
        r.selector = (call, s) := h
    simp only [advance, hends, if_true, hstep]

end CallRun

namespace FailoverCall

variable {policy : FailoverPolicy} {s : Selector} {n : NetworkId} {k : UInt32} {t : Transport}

/-- An attempt that comes to its end is the end of the call, or the call sets out to switch. -/
theorem step_outcome (policy : FailoverPolicy) (s : Selector) (n : NetworkId) (k : UInt32)
    (t : Transport) (now : Moment) (o : Except Fault α) :
    (step policy now (.outcome o) ⟨n, k, .attempting t⟩ s = (⟨n, k, .finished o⟩, s) ∧
      ∀ fault, o = .error fault → fault.isFailover = true → k ≤ policy.maxRetries →
        s.candidates n = []) ∨
    ∃ fault, o = .error fault ∧ fault.isFailover = true ∧ k ≤ policy.maxRetries ∧
      step policy now (.outcome o) ⟨n, k, .attempting t⟩ s =
        (⟨n, k, .switching (s.currentUrl n) fault⟩, s) := by
  cases o with
  | ok x => exact .inl ⟨rfl, fun fault h => (nomatch h)⟩
  | error fault =>
    by_cases hswitch : shouldSwitch policy (⟨n, k, .attempting t⟩ : FailoverCall α) fault = true
    · obtain ⟨hsignal, hretry⟩ := Bool.and_eq_true_iff.mp hswitch
      by_cases hlisted : s.candidates n = []
      · refine .inl ⟨?_, fun _ _ _ _ => hlisted⟩
        simp only [step, heard, failed, hswitch, if_true, Selector.toProbe, hlisted]
      · have hstep := step_outcome_error (α := α) hsignal (of_decide_eq_true hretry) hlisted now t
        exact .inr ⟨fault, rfl, hsignal, of_decide_eq_true hretry, Prod.ext hstep rfl⟩
    · refine .inl ⟨?_, fun fault' h hsignal hretry => absurd ?_ hswitch⟩
      · simp only [step, heard, failed, hswitch, Bool.false_eq_true, if_false]
      · obtain rfl := Except.error.inj h
        exact Bool.and_eq_true_iff.mpr ⟨hsignal, decide_eq_true hretry⟩

/-- Where the probes lead to a handle, the call pauses before it goes on over that one. -/
theorem step_probes_some (policy : FailoverPolicy) (fault : Fault) {s s' : Selector}
    {avoid : Option String} {ps : List Probe} {now : Moment}
    (h : s.settle n avoid ps now = (some t, s')) :
    step policy now (.probes ps) (⟨n, k, .switching avoid fault⟩ : FailoverCall α) s =
      (⟨n, k, .pausing t⟩, s') := by
  simp only [step, probed, h]

/-- Where they lead to none, the call fails with the fault that asked for the switch. -/
theorem step_probes_none (policy : FailoverPolicy) (fault : Fault) {s s' : Selector}
    {avoid : Option String} {ps : List Probe} {now : Moment}
    (h : s.settle n avoid ps now = (none, s')) :
    step policy now (.probes ps) (⟨n, k, .switching avoid fault⟩ : FailoverCall α) s =
      (⟨n, k, .finished (.error fault)⟩, s') := by
  simp only [step, probed, h]

end FailoverCall

namespace CallRun

variable {op : Operation σ α} {n : NetworkId} {r₀ r r' : Relay σ} {a : ActiveEndpoint}
  {ds : List Detour} {t : Transport} {since : List (Duration × FailoverCall.Event α)}
  {c : CallRun α}

/-- What a run of a call has come to: some detours, and what has happened since. -/
def Accounts (op : Operation σ α) (n : NetworkId) (r₀ : Relay σ)
    (events : List (Duration × FailoverCall.Event α)) (c : CallRun α) (r : Relay σ) : Prop :=
  ∃ ds t since a, Route op n r₀ ds t ∧ Stands op n r₀ ds t since c a ∧ Keeps n r₀ r a ∧
    events = ds.flatMap (Detour.events r₀.selector n) ++ since

/-- The relay as a step of the call leaves it. -/
theorem Keeps.await (h : Keeps n r₀ r a) {r₁ : Relay σ} (hr : r.Asks r₁) (call : FailoverCall α)
    (tried : List Transport) : Keeps n r₀ (r₁.await op call tried).2.2 a :=
  (h.asks hr).asks (Relay.asks_await op call tried r₁)

/-- The attempt comes to its end: the call is finished, or sets out to switch. -/
theorem accounts_outcome (hroute : Route op n r₀ ds t) (hkeeps : Keeps n r₀ r a) {k : UInt32}
    {w : Awaited (Except Fault α)} (hk : k.toNat = ds.length + 1)
    (hyields : op.Yields ds.length t w.value) (ht : a.transport = t)
    (hfirst : ds = [] → r₀.selector.table.get? n = some a) :
    let c : CallRun α :=
      ⟨⟨n, k, .attempting t⟩, .outcome w, ds.map Detour.transport ++ [t]⟩
    Accounts op n r₀ (ds.flatMap (Detour.events r₀.selector n) ++ [(r.now, .outcome w.value)])
      (c.advance op (.outcome w.value) r).1 (c.advance op (.outcome w.value) r).2 := by
  intro c
  -- the counter is one ahead of the detours, so it tells whether one more retry is left
  have hretry : k ≤ r.tunables.failover.maxRetries ↔
      ds.length < r₀.tunables.failover.maxRetries.toNat := by
    rw [hkeeps.tunables, UInt32.le_iff_toNat_le, hk]
    exact Iff.rfl
  rcases FailoverCall.step_outcome r.tunables.failover r.selector n k t r.moment w.value with
    ⟨hstep, hend⟩ | ⟨fault, hfault, hsignal, hle, hstep⟩
  · obtain ⟨r₁, hasks, hadvance⟩ := advance_eq op (c := c) hstep
    rw [hadvance]
    refine ⟨ds, t, _, a, hroute, .finished hyields (fun fault hfault hfails => ?_) ht hfirst,
      hkeeps.await hasks _ _, rfl⟩
    rw [← hkeeps.candidates]
    exact hend fault hfault hfails.signal (hretry.mpr hfails.retry)
  · obtain ⟨r₁, hasks, hadvance⟩ := advance_eq op (c := c) hstep
    -- the probes are asked for at `r₁`, but those of the same candidates as at the start
    have hkeeps₁ : Keeps n r₀ r₁ a := hkeeps.asks hasks
    obtain ⟨answers, hanswers⟩ := r₁.startProbes_candidates n
    rw [hadvance, hfault, hkeeps.currentUrl_eq, ht]
    rw [hfault] at hyields
    refine ⟨ds, t, _, a, hroute, ?_, hkeeps.await hasks _ _, rfl⟩
    exact .switching hk ⟨hyields, hsignal, hretry.mp hle⟩
      (hanswers.trans (hkeeps₁.probes_eq answers)) ht hfirst

/-- The probes come to their end: the call pauses, or is finished. -/
theorem accounts_probes (hroute : Route op n r₀ ds t) (hkeeps : Keeps n r₀ r a) {k : UInt32}
    {fault : Fault} {time : Duration} {ps : List (Awaited Probe)} {answers : Nat → Option Duration}
    (hk : k.toNat = ds.length + 1) (hfails : FailsOver op r₀ ds.length t fault)
    (ht : a.transport = t) (hfirst : ds = [] → r₀.selector.table.get? n = some a) :
    let c : CallRun α :=
      ⟨⟨n, k, .switching (some t.url) fault⟩, .probes ps, ds.map Detour.transport ++ [t]⟩
    let probes := r₀.selector.probes n answers
    Accounts op n r₀ (ds.flatMap (Detour.events r₀.selector n) ++
        [(time, .outcome (.error fault)), (r.now, .probes probes)])
      (c.advance op (.probes probes) r).1 (c.advance op (.probes probes) r).2 := by
  intro c probes
  cases hbest : Probe.bestAvoiding (some t.url) probes with
  | none =>
    have hstep := FailoverCall.step_probes_none (α := α) (k := k) r.tunables.failover fault
      (r.selector.settle_of_none n hbest r.moment)
    obtain ⟨r₁, hasks, hadvance⟩ := advance_eq op (c := c) hstep
    rw [hadvance]
    exact ⟨ds, t, _, a, hroute, .stranded hfails hbest ht hfirst, hkeeps.await hasks _ _, rfl⟩
  | some p =>
    have hserves (a' : ActiveEndpoint) (ha' : r.selector.table.get? n = some a') : a'.Serves n :=
      Option.some.inj (hkeeps.entry.symm.trans ha') ▸ hkeeps.serves
    -- the switch replaces the entry, so from here on the call is accounted for with the new one
    obtain ⟨a', s', hsettle, hlisted, hentry, hserves', hurl⟩ :=
      Selector.settle_of_some hserves hbest r.moment
    have hstep := FailoverCall.step_probes_some (α := α) (k := k) r.tunables.failover fault hsettle
    have hkeeps' : Keeps n r₀ { r with selector := s' } a' := by
      refine ⟨hkeeps.tunables, ?_, hentry, hserves'⟩
      rw [← hkeeps.candidates, Selector.candidates, Selector.candidates, ← hlisted]
    obtain ⟨r₁, hasks, hadvance⟩ := advance_eq op (c := c) hstep
    rw [hadvance]
    refine ⟨ds, t, _, a', hroute, ?_, hkeeps'.await hasks _ _, rfl⟩
    have hdue : r₁.now + r₁.tunables.failover.retryDelay =
        r.now + r₀.tunables.failover.retryDelay := by
      rw [(hkeeps'.asks hasks).tunables]
      obtain ⟨outside, stamps, rfl⟩ := hasks
      rfl
    exact .pausing hk hfails hbest hurl hdue

/-- The pause comes to its end: the next attempt is made. -/
theorem accounts_pauseOver (hroute : Route op n r₀ ds t) (hkeeps : Keeps n r₀ r a)
    (hmax : r₀.tunables.failover.maxRetries.toNat + 1 < UInt32.size) {k : UInt32}
    {fault : Fault} {time time' : Nat} {answers : Nat → Option Duration} {p : Probe}
    {w : Awaited Unit} (hk : k.toNat = ds.length + 1) (hfails : FailsOver op r₀ ds.length t fault)
    (hp : Probe.bestAvoiding (some t.url) (r₀.selector.probes n answers) = some p)
    (hurl : a.transport.url = p.url) (hdue : w.due = time' + r₀.tunables.failover.retryDelay)
    (hnow : w.due ≤ r.now) :
    let c : CallRun α := ⟨⟨n, k, .pausing a.transport⟩, .pause w, ds.map Detour.transport ++ [t]⟩
    Accounts op n r₀ (ds.flatMap (Detour.events r₀.selector n) ++
        [(time, .outcome (.error fault)), (time', .probes (r₀.selector.probes n answers)),
          (r.now, .pauseOver)])
      (c.advance op .pauseOver r).1 (c.advance op .pauseOver r).2 := by
  intro c
  let d : Detour := ⟨t, fault, answers, time, time', r.now⟩
  have hstep : c.call.step r.tunables.failover r.moment .pauseOver r.selector =
      (⟨n, k + 1, .attempting a.transport⟩, r.selector) := rfl
  obtain ⟨r₁, hasks, hadvance⟩ := advance_eq op hstep
  have htried : ds.map Detour.transport ++ [t] = (ds ++ [d]).map Detour.transport := by
    rw [List.map_append]
    rfl
  -- this is where the bound on the retries is needed: the counter does not wrap around
  have hk' : (k + 1).toNat = (ds ++ [d]).length + 1 := by
    have hlt : ds.length + 1 + 1 < UInt32.size :=
      Nat.lt_of_le_of_lt (Nat.succ_le_succ hfails.retry) hmax
    rw [UInt32.toNat_add, hk, List.length_append]
    exact Nat.mod_eq_of_lt hlt
  rw [hadvance]
  refine ⟨ds ++ [d], a.transport, [], a, ?_, ?_, hkeeps.await hasks _ _, ?_⟩
  · exact .detour (d := d) hroute hfails hp hurl (hdue ▸ hnow)
  · have hfirst : ds ++ [d] = [] → r₀.selector.table.get? n = some a :=
      fun h => (nomatch List.append_eq_nil_iff.mp h)
    have hlength : (ds.map Detour.transport ++ [t]).length = (ds ++ [d]).length := by
      rw [htried, List.length_map]
    let w' : Awaited (Except Fault α) := (r₁.after
      (op.start (ds.map Detour.transport ++ [t]).length a.transport r₁.outside).1).1
    have hyields : op.Yields (ds ++ [d]).length a.transport w'.value :=
      ⟨r₁.outside, by rw [← hlength]; rfl⟩
    have hstands : Stands op n r₀ (ds ++ [d]) a.transport [] ⟨⟨n, k + 1, .attempting a.transport⟩,
        .outcome w', (ds ++ [d]).map Detour.transport ++ [a.transport]⟩ a :=
      .attempting hk' hyields rfl hfirst
    rw [← htried] at hstands
    exact hstands
  · rw [List.flatMap_append, List.append_nil]
    rfl

/-- **One step of the call.** Each phase leads to the next one, or to the end. -/
theorem Stands.advance (h : Stands op n r₀ ds t since c a) (hroute : Route op n r₀ ds t)
    (hkeeps : Keeps n r₀ r a) (hmax : r₀.tunables.failover.maxRetries.toNat + 1 < UInt32.size)
    {e : FailoverCall.Event α} (he : c.wait.event? r.now = some e) :
    Accounts op n r₀ (ds.flatMap (Detour.events r₀.selector n) ++ since ++ [(r.now, e)])
      (c.advance op e r).1 (c.advance op e r).2 := by
  rw [List.append_assoc]
  -- what the call waits for in a phase leaves one kind of event
  cases h with
  | attempting hk hyields ht hfirst =>
    obtain ⟨o, ho, rfl⟩ := Option.map_eq_some_iff.mp he
    obtain ⟨-, rfl⟩ := Awaited.now?_eq_some_iff.mp ho
    exact accounts_outcome hroute hkeeps hk hyields ht hfirst
  | switching hk hfails hps ht hfirst =>
    obtain ⟨ps', hps', rfl⟩ := Option.map_eq_some_iff.mp he
    obtain ⟨-, rfl⟩ := Awaited.mapM_now?_eq_some_iff.mp hps'
    rw [hps]
    exact accounts_probes hroute hkeeps hk hfails ht hfirst
  | pausing hk hfails hp hurl hdue =>
    obtain ⟨_, hw, rfl⟩ := Option.map_eq_some_iff.mp he
    obtain ⟨hnow, -⟩ := Awaited.now?_eq_some_iff.mp hw
    exact accounts_pauseOver hroute hkeeps hmax hk hfails hp hurl hdue hnow
  | finished => cases he
  | stranded => cases he

/-! ### A whole run -/

theorem begin_eq_of_none (op : Operation σ α) (hnone : r₀.selector.table.get? n = none) :
    begin op n r₀ = (⟨⟨n, 1, .finished (.error (.noTransport n))⟩, .nothing, []⟩, r₀) := by
  rw [begin, FailoverCall.begin, Selector.bestTransport, hnone]
  rfl

/-- Without an endpoint the call is over before anything happens. -/
theorem Course.of_none (h : Course op n r₀ since c r)
    (hnone : r₀.selector.table.get? n = none) :
    since = [] ∧ c = ⟨⟨n, 1, .finished (.error (.noTransport n))⟩, .nothing, []⟩ := by
  induction h with
  | begin =>
    rw [begin_eq_of_none op hnone]
    exact ⟨rfl, rfl⟩
  | others _ _ ih => exact ih
  | step _ he _ ih =>
    rw [ih.2] at he
    cases he

theorem accounts_begin (ha : r₀.selector.table.get? n = some a) (hserves : a.Serves n) :
    Accounts op n r₀ [] (begin op n r₀).1 (begin op n r₀).2 := by
  have hbegin : FailoverCall.begin (α := α) r₀.selector n = ⟨n, 1, .attempting a.transport⟩ := by
    rw [FailoverCall.begin, Selector.bestTransport, ha]
  have hkeeps : Keeps n r₀ r₀ a := ⟨rfl, rfl, ha, hserves⟩
  have hasked : Keeps n r₀ (r₀.await op (.begin r₀.selector n) []).2.2 a :=
    hkeeps.await (.refl r₀) _ _
  rw [hbegin] at hasked
  rw [begin, hbegin]
  exact ⟨[], a.transport, [], a, .direct ha, .attempting rfl ⟨r₀.outside, rfl⟩ rfl fun _ => ha,
    hasked, rfl⟩

/-- **Every run of a call keeps to its account**, whatever the others do meanwhile. -/
theorem Course.accounts {events : List (Duration × FailoverCall.Event α)}
    (h : Course op n r₀ events c r)
    (hmax : r₀.tunables.failover.maxRetries.toNat + 1 < UInt32.size)
    (ha : r₀.selector.table.get? n = some a) (hserves : a.Serves n) :
    Accounts op n r₀ events c r := by
  induction h with
  | begin => exact accounts_begin ha hserves
  | others _ hspares ih =>
    obtain ⟨ds, t, since, a', hroute, hstands, hkeeps, hevents⟩ := ih
    exact ⟨ds, t, since, a', hroute, hstands, hkeeps.spares hspares, hevents⟩
  | step _ he hstep ih =>
    obtain ⟨ds, t, since, a', hroute, hstands, hkeeps, rfl⟩ := ih
    have hadvance := hstands.advance hroute hkeeps hmax he
    rwa [Option.some.inj ((step?_of_event? he).symm.trans hstep)] at hadvance

theorem Stands.length_le (h : Stands op n r₀ ds t since c a) :
    since.length ≤ 2 ∧ c.tried = ds.map Detour.transport ++ [t] := by
  constructor
  · cases h <;> simp
  · cases h <;> rfl

theorem length_flatMap_events (s : Selector) (n : NetworkId) (ds : List Detour) :
    (ds.flatMap (Detour.events (α := α) s n)).length = 3 * ds.length := by
  induction ds with
  | nil => rfl
  | cons d ds ih =>
    rw [List.flatMap_cons, List.length_append, ih, List.length_cons, Nat.mul_succ, Nat.add_comm]
    rfl

/-- A call takes no more steps than the retries allow. -/
theorem Course.length_le {events : List (Duration × FailoverCall.Event α)}
    (h : Course op n r₀ events c r) (hcoherent : r₀.selector.Coherent)
    (hmax : r₀.tunables.failover.maxRetries.toNat + 1 < UInt32.size) :
    events.length ≤ 3 * r₀.tunables.failover.maxRetries.toNat + 2 := by
  cases hentry : r₀.selector.table.get? n with
  | none =>
    rw [(h.of_none hentry).1]
    exact Nat.zero_le _
  | some a₀ =>
    obtain ⟨ds, t, since, a, hroute, hstands, -, rfl⟩ :=
      h.accounts hmax hentry (hcoherent.serves hentry)
    have hlength := hroute.length_le
    have hsince := hstands.length_le.1
    rw [List.length_append, length_flatMap_events]
    omega

theorem Course.pollFor {events : List (Duration × FailoverCall.Event α)}
    (h : Course op n r₀ events c r) (fuel : Nat) :
    ∃ more, Course op n r₀ (events ++ more) (c.pollFor op fuel r).1 (c.pollFor op fuel r).2 ∧
      (more.length = fuel ∨
        (c.pollFor op fuel r).1.step? op (c.pollFor op fuel r).2 = none) := by
  induction fuel generalizing events c r with
  | zero => exact ⟨[], by rwa [List.append_nil], .inl rfl⟩
  | succ fuel ih =>
    rw [CallRun.pollFor]
    split
    · next hnone => exact ⟨[], by rwa [List.append_nil], .inr hnone⟩
    · next c' r' hstep =>
      obtain ⟨e, he, -⟩ := Option.map_eq_some_iff.mp hstep
      obtain ⟨more, hmore, hend⟩ := ih (h.step he hstep)
      rw [List.append_assoc] at hmore
      exact ⟨(r.now, e) :: more, hmore, hend.imp_left (congrArg (· + 1))⟩

/-- **Looked at, a call goes on until nothing is there for it**, which it always does before the
patience of the relay is at its end. -/
theorem Course.poll {events : List (Duration × FailoverCall.Event α)}
    (h : Course op n r₀ events c r) (hcoherent : r₀.selector.Coherent)
    (hmax : r₀.tunables.failover.maxRetries.toNat + 1 < UInt32.size) :
    (∃ more, Course op n r₀ (events ++ more) (c.poll op r).1 (c.poll op r).2) ∧
      (c.poll op r).1.step? op (c.poll op r).2 = none := by
  obtain ⟨more, hmore, hend⟩ := h.pollFor Relay.patience
  -- had the patience run out, the run would be longer than any
  refine ⟨⟨more, hmore⟩, hend.resolve_left fun hlength => ?_⟩
  have hle := hmore.length_le hcoherent hmax
  rw [List.length_append, hlength, Relay.patience] at hle
  rw [UInt32.size] at hmax
  omega

/-- There is a time by which all of some things are there. -/
theorem exists_due (ps : List (Awaited Probe)) : ∃ due, ∀ p ∈ ps, p.due ≤ due := by
  induction ps with
  | nil => exact ⟨0, fun p hp => (nomatch hp)⟩
  | cons p ps ih =>
    obtain ⟨due, hdue⟩ := ih
    refine ⟨max p.due due, List.forall_mem_cons.mpr ⟨Nat.le_max_left .., fun q hq => ?_⟩⟩
    exact Nat.le_trans (hdue q hq) (Nat.le_max_right ..)

/-- A call that is not over waits for something that will be there at some time. -/
theorem Stands.exists_due (h : Stands op n r₀ ds t since c a) (hanswer : c.call.answer? = none) :
    ∃ due, ∀ r' : Relay σ, due ≤ r'.now → (c.step? op r').isSome := by
  have hstep {c : CallRun α} {r' : Relay σ} {e : FailoverCall.Event α}
      (he : c.wait.event? r'.now = some e) : (c.step? op r').isSome := by
    rw [step?_of_event? he]
    rfl
  cases h with
  | @attempting k w _ => exact ⟨w.due, fun r' hr' => hstep (Wait.event?_outcome hr')⟩
  | @switching k fault time ps answers _ =>
    obtain ⟨due, hdue⟩ := CallRun.exists_due ps
    exact ⟨due, fun r' hr' => hstep (Wait.event?_probes fun p hp => Nat.le_trans (hdue p hp) hr')⟩
  | @pausing k fault time time' answers p w _ =>
    exact ⟨w.due, fun r' hr' => hstep (Wait.event?_pause hr')⟩
  | finished => cases hanswer
  | stranded => cases hanswer

variable (op n r₀)

/-- How a call ends whose last attempt is made over `t`. -/
structure Ends (ds : List Detour) (t : Transport) (answer : Except Fault α)
    (events : List (Duration × FailoverCall.Event α)) (a : ActiveEndpoint) : Prop where
  /-- the answer is how the last attempt turns out -/
  yields : op.Yields ds.length t answer
  /-- the table holds the endpoint of that attempt -/
  held : a.transport = t
  /-- which was there from the start if the call was made once only -/
  untouched : ds = [] → r₀.selector.table.get? n = some a
  /-- the last attempt is not one that can be made again, or there is no candidate, or none of them
  is of use -/
  events_eq : ∃ time since,
    events = ds.flatMap (Detour.events r₀.selector n) ++ (time, .outcome answer) :: since ∧
    ((since = [] ∧ ∀ fault, answer = .error fault → FailsOver op r₀ ds.length t fault →
      r₀.selector.candidates n = []) ∨
    ∃ fault time' answers, answer = .error fault ∧ FailsOver op r₀ ds.length t fault ∧
      Probe.bestAvoiding (some t.url) (r₀.selector.probes n answers) = none ∧
      since = [(time', .probes (r₀.selector.probes n answers))])

/-- What comes of a call. -/
structure Followed (events : List (Duration × FailoverCall.Event α)) (c : CallRun α) (r : Relay σ) :
    Prop where
  /-- without an endpoint it fails at once, and nothing is asked -/
  of_none : r₀.selector.table.get? n = none →
    begin op n r₀ = (⟨⟨n, 1, .finished (.error (.noTransport n))⟩, .nothing, []⟩, r₀) ∧
      events = [] ∧ c = (begin op n r₀).1
  /-- else the handles it is run over are those of its way, and it has ended or goes on some time -/
  of_some : (r₀.selector.table.get? n).isSome → ∃ ds t a,
    Route op n r₀ ds t ∧ ds.length ≤ r₀.tunables.failover.maxRetries.toNat ∧
      c.tried = ds.map Detour.transport ++ [t] ∧
      r.selector.table.get? n = some a ∧ a.Serves n ∧
      ((∃ answer, c.call.answer? = some answer ∧ Ends op n r₀ ds t answer events a) ∨
        (c.call.answer? = none ∧ ∃ due, ∀ r' : Relay σ, due ≤ r'.now → (c.step? op r').isSome))
  /-- and that no more often than the retries allow -/
  length_le : events.length ≤ 3 * r₀.tunables.failover.maxRetries.toNat + 2

variable {op n r₀}

theorem Stands.ends (h : Stands op n r₀ ds t since c a) {answer : Except Fault α}
    (hanswer : c.call.answer? = some answer) :
    Ends op n r₀ ds t answer (ds.flatMap (Detour.events r₀.selector n) ++ since) a := by
  cases h with
  | finished hyields hend ht hfirst =>
    obtain rfl := Option.some.inj hanswer
    exact ⟨hyields, ht, hfirst, _, [], rfl, .inl ⟨rfl, hend⟩⟩
  | stranded hfails hbest ht hfirst =>
    obtain rfl := Option.some.inj hanswer
    exact ⟨hfails.yields, ht, hfirst, _, _, rfl, .inr ⟨_, _, _, rfl, hfails, hbest, rfl⟩⟩
  | _ => cases hanswer

/-- **What comes of a call.** It is run over the endpoint in the table, then after each failure that
asks for it, as long as there are retries, over the endpoint that a switch away from the last one
chooses, and its answer is how the last attempt turns out. A switch that has chosen an endpoint gets
a handle to it, as `Selector.connect` assumes. -/
theorem followed {listed : Table NetworkId (List String)} {moves : List Switchboard.Move}
    (hselector : r₀.selector = ((Switchboard.idle listed).run moves).selector)
    (hmax : r₀.tunables.failover.maxRetries.toNat + 1 < UInt32.size)
    {events : List (Duration × FailoverCall.Event α)} (hcourse : Course op n r₀ events c r) :
    Followed op n r₀ events c r := by
  have hcoherent : r₀.selector.Coherent :=
    hselector ▸ ((Switchboard.sound_idle listed).run moves).coherent
  have hlength := hcourse.length_le hcoherent hmax
  cases hentry : r₀.selector.table.get? n with
  | none =>
    obtain ⟨hevents, rfl⟩ := hcourse.of_none hentry
    have hbegin := begin_eq_of_none op hentry
    refine ⟨fun _ => ⟨hbegin, hevents, by rw [hbegin]⟩, fun hsome => ?_, hlength⟩
    rw [hentry] at hsome
    cases hsome
  | some a₀ =>
    obtain ⟨ds, t, since, a, hroute, hstands, hkeeps, rfl⟩ :=
      hcourse.accounts hmax hentry (hcoherent.serves hentry)
    refine ⟨fun hnone => ?_, fun _ => ?_, hlength⟩
    · rw [hentry] at hnone
      cases hnone
    · refine ⟨ds, t, a, hroute, hroute.length_le, hstands.length_le.2, hkeeps.entry,
        hkeeps.serves, ?_⟩
      cases hanswer : c.call.answer? with
      | none => exact .inr ⟨rfl, hstands.exists_due hanswer⟩
      | some answer => exact .inl ⟨answer, rfl, hstands.ends hanswer⟩

/-- Nothing but the clock goes on until a call goes on. -/
theorem Course.wait {events : List (Duration × FailoverCall.Event α)}
    (h : Course op n r₀ events c r) (time : Duration) {e : FailoverCall.Event α}
    (hle : r.now ≤ time) (he : c.wait.event? time = some e) :
    Course op n r₀ (events ++ [(time, e)]) (c.advance op e { r with now := time }).1
      (c.advance op e { r with now := time }).2 := by
  have hspares : r.Spares n { r with now := time } := ⟨hle, rfl, rfl, rfl⟩
  exact (h.others hspares).step he (step?_of_event? he)

/-- An operation that reverts at one address and answers everywhere else. -/
def revertsAt (url : String) : Operation Unit Nat where
  start _ t outside :=
    (⟨.ofMillis 5, if t.url = url then .error (.failover "revert") else .ok 7⟩, outside)
  done outside := outside

/-- Two endpoints that answer, the second one more slowly, and the first one is in the table. -/
def twoAnswer : Relay Unit where
  providers := {
    roundTrip := fun _ url outside =>
      (⟨.ofMillis (if url = "http://a" then 10 else 30), true⟩, outside)
    readRound := fun _ _ outside => (⟨0, .error (.remote "no contract")⟩, outside)
    readDone := fun outside => outside
    quotes := none }
  outside := ()
  selector := ((Switchboard.idle Calls.twoListed).run
    [.publish 1 "http://a" (.ofMillis 10) (.running 0)]).selector
  cache := { cap := 1000, policy := ⟨"none", fun _ => []⟩ }
  limiter := .ofCount 1

/-- The probes of the switch, which begins after five milliseconds. -/
def twoProbes : List (Awaited Probe) :=
  [⟨.ofMillis 15, 1, ⟨1, "http://a", some (.ofMillis 10)⟩⟩,
    ⟨.ofMillis 35, 2, ⟨1, "http://b", some (.ofMillis 30)⟩⟩]

/-- The call switches to the second endpoint, and is answered there. -/
theorem followed_elsewhere : ∃ events c r,
    Course (revertsAt "http://a") 1 twoAnswer events c r ∧
      Followed (revertsAt "http://a") 1 twoAnswer events c r ∧
      c.call.answer? = some (.ok 7) ∧ c.tried.map Transport.url = ["http://a", "http://b"] ∧
      r.selector.currentUrl 1 = some "http://b" := by
  have hstart : Course (revertsAt "http://a") 1 twoAnswer [] _ _ := .begin
  have hfailed := hstart.wait (.ofMillis 5) (by decide +kernel)
    (Wait.event?_outcome (a := ⟨.ofMillis 5, 0, .error (.failover "revert")⟩) (Nat.le_refl _))
  have hthere : ∀ p ∈ twoProbes, p.due ≤ .ofMillis 35 := by simp [twoProbes, Duration.ofMillis]
  have hswitched := hfailed.wait (.ofMillis 35) (by decide +kernel) (Wait.event?_probes hthere)
  have hrested := hswitched.wait (.ofMillis 2035) (by decide +kernel)
    (Wait.event?_pause (a := ⟨.ofMillis 2035, 3, ()⟩) (Nat.le_refl _))
  have hanswered := hrested.wait (.ofMillis 2040) (by decide +kernel)
    (Wait.event?_outcome (a := ⟨.ofMillis 2040, 4, .ok 7⟩) (Nat.le_refl _))
  exact ⟨_, _, _, hanswered, followed rfl (by decide) hanswered, by rfl, by decide +kernel,
    by decide +kernel⟩

end CallRun

end PriceRelay
