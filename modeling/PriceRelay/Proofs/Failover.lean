import PriceRelay.Failover
import PriceRelay.Proofs.Endpoint.Selector
/-!
# Calls that share a selector

Calls with failover, the probe loops and whoever else switches a network all work on one table.
Between two events of a call the others may do anything to it.

* `Calls` are some calls and the selector they share, `Calls.move` is what may happen next,
* `Calls.run_others` says that a call is left alone by what happens to others,
* `Calls.retried_elsewhere_iff` says when a call is retried at another address: a switch leads away
  from the endpoint in the table, which need not be the one the call has failed on.
-/

namespace PriceRelay

/-- Some calls, by number, and the selector they share. -/
structure Calls (α : Type) where
  /-- the selector -/
  selector : Selector
  /-- the calls -/
  calls : List (FailoverCall α) := []

namespace Calls

variable {α : Type}

/-- What may happen next. -/
inductive Move (α : Type)
  /-- another call for a network begins -/
  | start (n : NetworkId)
  /-- an event of one of the calls -/
  | event (i : Nat) (now : Moment) (e : FailoverCall.Event α)
  /-- somebody else settles a choice, say a round of a probe loop -/
  | choice (n : NetworkId) (avoid : Option String) (probes : List Probe) (now : Moment)

/-- Whether something happens to the call of that number. -/
def Move.IsOf (i : Nat) : Move α → Prop
  | event j _ _ => j = i
  | _ => False

/-- Make a move; an event of a call that is not there changes nothing. -/
def move (policy : FailoverPolicy) (s : Calls α) : Move α → Calls α
  | .start n => { s with calls := s.calls ++ [.begin s.selector n] }
  | .event i now e =>
    match s.calls[i]? with
    | none => s
    | some c =>
      let (c', selector) := c.step policy now e s.selector
      ⟨selector, s.calls.set i c'⟩
  | .choice n avoid probes now => { s with selector := (s.selector.settle n avoid probes now).2 }

/-- Make some moves, one after another. -/
def run (policy : FailoverPolicy) (s : Calls α) (moves : List (Move α)) : Calls α :=
  moves.foldl (move policy) s

/-- No call has begun and nothing is chosen yet. -/
def idle (listed : Table NetworkId (List String)) : Calls α := ⟨.unsettled listed, []⟩

variable {policy : FailoverPolicy} {s : Calls α}

theorem run_append (policy : FailoverPolicy) (s : Calls α) (moves more : List (Move α)) :
    s.run policy (moves ++ more) = (s.run policy moves).run policy more :=
  List.foldl_append

theorem run_cons (policy : FailoverPolicy) (s : Calls α) (m : Move α) (moves : List (Move α)) :
    s.run policy (m :: moves) = (s.move policy m).run policy moves :=
  rfl

/-! ### What no move changes -/

theorem selector_probed (c : FailoverCall α) (sel : Selector) (probes : List Probe)
    (now : Moment) : (c.probed sel probes now).2 = sel ∨
      ∃ avoid, (c.probed sel probes now).2 = (sel.settle c.network avoid probes now).2 := by
  rw [FailoverCall.probed]
  split
  · next avoid fault hphase =>
    refine .inr ⟨avoid, ?_⟩
    cases sel.settle c.network avoid probes now with
    | mk t sel' => cases t <;> rfl
  · exact .inl rfl

/-- A move leaves the selector as it is, or somebody settles a choice. -/
theorem selector_move (policy : FailoverPolicy) (s : Calls α) (m : Move α) :
    (s.move policy m).selector = s.selector ∨ ∃ n avoid probes now,
      (s.move policy m).selector = (s.selector.settle n avoid probes now).2 := by
  cases m with
  | start n => exact .inl rfl
  | event i now e =>
    rw [move]
    split
    · exact .inl rfl
    · next c hc =>
      cases e with
      | outcome o => exact .inl rfl
      | probes ps =>
        -- the only event of a call that can change the table
        rcases selector_probed c s.selector ps now with h | ⟨avoid, h⟩
        · exact .inl h
        · exact .inr ⟨c.network, avoid, ps, now, h⟩
      | pauseOver => exact .inl rfl
  | choice n avoid probes now => exact .inr ⟨n, avoid, probes, now, rfl⟩

/-- **No move makes the table tell anything untrue.** -/
theorem coherent_run (h : s.selector.Coherent) (moves : List (Move α)) :
    (s.run policy moves).selector.Coherent := by
  induction moves generalizing s with
  | nil => exact h
  | cons m moves ih =>
    apply ih
    rcases selector_move policy s m with heq | ⟨n, avoid, probes, now, heq⟩
    · rw [heq]
      exact h
    · rw [heq]
      exact h.settle n avoid probes now

/-- The candidates stay what they were. -/
theorem listed_run (policy : FailoverPolicy) (s : Calls α) (moves : List (Move α)) :
    (s.run policy moves).selector.listed = s.selector.listed := by
  induction moves generalizing s with
  | nil => rfl
  | cons m moves ih =>
    rw [run_cons, ih]
    rcases selector_move policy s m with heq | ⟨n, avoid, probes, now, heq⟩
    · rw [heq]
    · rw [heq, Selector.listed_settle]

/-- A call is left alone by what does not happen to it. -/
theorem getElem?_move (policy : FailoverPolicy) {i : Nat} {c : FailoverCall α}
    (hc : s.calls[i]? = some c) {m : Move α} (hm : ¬ m.IsOf i) :
    (s.move policy m).calls[i]? = some c := by
  cases m with
  | start n =>
    have hlt : i < s.calls.length := (List.getElem?_eq_some_iff.mp hc).1
    rw [move, List.getElem?_append_left hlt, hc]
  | event j now e =>
    rw [move]
    split
    · exact hc
    · have hji : j ≠ i := hm
      rw [List.getElem?_set_ne hji, hc]
  | choice n avoid probes now => exact hc

theorem run_others (policy : FailoverPolicy) {i : Nat} {c : FailoverCall α}
    (hc : s.calls[i]? = some c) {moves : List (Move α)} (hmoves : ∀ m ∈ moves, ¬ m.IsOf i) :
    (s.run policy moves).calls[i]? = some c := by
  induction moves generalizing s with
  | nil => exact hc
  | cons m moves ih =>
    have hstep : (s.move policy m).calls[i]? = some c :=
      getElem?_move policy hc (hmoves m (List.mem_cons_self ..))
    exact ih hstep fun m' hm' => hmoves m' (List.mem_cons_of_mem _ hm')

/-! ### The events of one call -/

/-- An event is taken by the call it is meant for. -/
theorem getElem?_move_event (policy : FailoverPolicy) {i : Nat} {c : FailoverCall α}
    (hc : s.calls[i]? = some c) (now : Moment) (e : FailoverCall.Event α) :
    (s.move policy (.event i now e)).calls[i]? = some (c.step policy now e s.selector).1 := by
  have hlt : i < s.calls.length := (List.getElem?_eq_some_iff.mp hc).1
  simp only [move, hc]
  exact List.getElem?_set_self hlt

end Calls

namespace FailoverCall

variable {α : Type} {policy : FailoverPolicy} {sel : Selector} {n : NetworkId} {k : UInt32}
  {fault : Fault}

/-- A failure that asks for another endpoint makes the call avoid the one in the table. -/
theorem step_outcome_error (hsignal : fault.isFailover = true) (hretry : k ≤ policy.maxRetries)
    (hlisted : sel.candidates n ≠ []) (now : Moment) (t : Transport) :
    (step policy now (.outcome (.error fault)) (⟨n, k, .attempting t⟩ : FailoverCall α) sel).1 =
      ⟨n, k, .switching (sel.currentUrl n) fault⟩ := by
  have hswitch : shouldSwitch policy (⟨n, k, .attempting t⟩ : FailoverCall α) fault = true := by
    rw [shouldSwitch, hsignal, decide_eq_true hretry]
    rfl
  have hprobe : sel.toProbe n = .ok (sel.candidates n) := by
    rw [Selector.toProbe]
    split
    · next hnil => exact absurd hnil hlisted
    · rfl
  simp only [step, heard, failed, hswitch, if_true, hprobe]

/-- The next handle leads to the address of the best probe. -/
theorem step_probes (h : sel.Coherent) {avoid : Option String} {ps : List Probe} {p : Probe}
    (hp : Probe.bestAvoiding avoid ps = some p) (now : Moment) :
    ∃ t, t.url = p.url ∧
      (step policy now (.probes ps) (⟨n, k, .switching avoid fault⟩ : FailoverCall α) sel).1 =
        ⟨n, k, .pausing t⟩ := by
  obtain ⟨t, ht, -, hurl⟩ := h.settle_eq_some hp now
  refine ⟨t, hurl, ?_⟩
  simp only [step, probed]
  split
  · next t' sel' heq =>
    rw [heq] at ht
    rw [Option.some.inj ht]
  · next sel' heq =>
    rw [heq] at ht
    cases ht

end FailoverCall

namespace Calls

variable {α : Type} {policy : FailoverPolicy}

/-- What a switch chooses leads away from `url` exactly when `url` is what it avoids, or is not the
fastest of what it does not avoid. -/
theorem exists_choice_ne_iff (avoid : Option String) {ps : List Probe} {url : String}
    (helse : ∃ p ∈ ps, p.isHealthy = true ∧ p.url ≠ url) :
    ∃ p, Probe.bestAvoiding avoid ps = some p ∧ (p.url ≠ url ↔ avoid = some url ∨
      ∀ q, Probe.FirstFastest id (ps.filter fun q => some q.url ≠ avoid) q → q.url ≠ url) := by
  obtain ⟨p₀, hp₀, hhealthy, hne⟩ := helse
  obtain ⟨d₀, hd₀⟩ := Option.isSome_iff_exists.mp hhealthy
  rw [Probe.bestAvoiding_eq_or]
  cases hpick : Probe.fastest id (ps.filter fun q => some q.url ≠ avoid) with
  | some p =>
    -- something else is of use, and `p` is the only first of the fastest of it
    have hfirst := Probe.fastest_eq_some_iff.mp hpick
    refine ⟨p, rfl, fun hurl => .inr fun q hq => ?_, fun h => ?_⟩
    · obtain rfl := Option.some.inj (hpick.symm.trans (Probe.fastest_eq_some_iff.mpr hq))
      exact hurl
    · rcases h with rfl | h
      · have hmem := (List.mem_filter.mp hfirst.mem).2
        simpa using hmem
      · exact h p hfirst
  | none =>
    -- all that is of use is at the avoided address, so the failed endpoint is not
    have hnone := Probe.fastest_eq_none_iff.mp hpick
    have havoid {p : Probe} {d : Duration} (hp : p ∈ ps) (hd : p.speed = some d) :
        some p.url = avoid := by
      apply Classical.byContradiction
      intro hn
      have hspeed : p.speed = none :=
        hnone p (List.mem_filter.mpr ⟨hp, decide_eq_true hn⟩)
      rw [hspeed] at hd
      cases hd
    cases hall : Probe.fastest id ps with
    | none =>
      have hspeed : p₀.speed = none := Probe.fastest_eq_none_iff.mp hall p₀ hp₀
      rw [hspeed] at hd₀
      cases hd₀
    | some p =>
      have hfirst := Probe.fastest_eq_some_iff.mp hall
      obtain ⟨d, hd⟩ := hfirst.speed_eq_some
      have hsame : p.url = p₀.url :=
        Option.some.inj ((havoid hfirst.mem hd).trans (havoid hp₀ hd₀).symm)
      refine ⟨p, rfl, fun _ => .inr fun q hq => ?_, fun _ => hsame ▸ hne⟩
      rw [Probe.fastest_eq_some_iff.mpr hq] at hpick
      cases hpick

/-- A call that fails, switches and pauses is back at the address that its probes chose, whatever
the others do in between. -/
theorem exists_retry {s : Calls α} (h : s.selector.Coherent) {between later : List (Move α)}
    {i : Nat} {n : NetworkId} {k : UInt32} {t : Transport} {fault : Fault} {ps : List Probe}
    (hattempt : s.calls[i]? = some ⟨n, k, .attempting t⟩)
    (hsignal : fault.isFailover = true) (hretry : k ≤ policy.maxRetries)
    (hlisted : s.selector.candidates n ≠ []) (hbetween : ∀ m ∈ between, ¬ m.IsOf i)
    (hlater : ∀ m ∈ later, ¬ m.IsOf i) {p : Probe}
    (hp : Probe.bestAvoiding (s.selector.currentUrl n) ps = some p) (now now' now'' : Moment) :
    ∃ t', t'.url = p.url ∧ (s.run policy (.event i now (.outcome (.error fault)) ::
        (between ++ .event i now' (.probes ps) ::
          (later ++ [.event i now'' .pauseOver])))).calls[i]? =
        some ⟨n, k + 1, .attempting t'⟩ := by
  have hfailed : (s.move policy (.event i now (.outcome (.error fault)))).calls[i]? =
      some ⟨n, k, .switching (s.selector.currentUrl n) fault⟩ := by
    rw [getElem?_move_event policy hattempt,
      FailoverCall.step_outcome_error hsignal hretry hlisted]
  -- what the switch avoids was read before `between`, so only `Coherent` is needed of the selector
  have hcoherent : ((s.move policy (.event i now (.outcome (.error fault)))).run policy
      between).selector.Coherent :=
    coherent_run h (.event i now (.outcome (.error fault)) :: between)
  obtain ⟨t', hurl, hstep⟩ := FailoverCall.step_probes hcoherent hp now'
  refine ⟨t', hurl, ?_⟩
  have hswitching := run_others policy hfailed hbetween
  have hpausing := getElem?_move_event policy hswitching now' (.probes ps)
  rw [hstep] at hpausing
  have hrested := getElem?_move_event policy (run_others policy hpausing hlater) now'' .pauseOver
  rw [run_cons, run_append, run_cons, run_append, run_cons]
  exact hrested

/-- **When a call is retried at another address.** However a call and the others take turns: let an
attempt of the call fail in a way that asks for another endpoint, and let the probes of the switch
find another one of use. Then there is a next attempt. It is at another address exactly when the
table still held the failed endpoint as the attempt failed, or the failed endpoint is not the
fastest at another address than the one that the table held. (`Selector.connect` assumes that a
handle to the endpoint can be made; else there is no next attempt.) -/
theorem retried_elsewhere_iff {listed : Table NetworkId (List String)}
    {before between later : List (Move α)} {i : Nat} {n : NetworkId} {k : UInt32} {t : Transport}
    {fault : Fault} {ps : List Probe}
    (hattempt : ((idle listed).run policy before).calls[i]? = some ⟨n, k, .attempting t⟩)
    (hsignal : fault.isFailover = true) (hretry : k ≤ policy.maxRetries)
    (hlisted : (Selector.unsettled listed).candidates n ≠ [])
    (hbetween : ∀ m ∈ between, ¬ m.IsOf i) (hlater : ∀ m ∈ later, ¬ m.IsOf i)
    (helse : ∃ p ∈ ps, p.isHealthy = true ∧ p.url ≠ t.url) (now now' now'' : Moment) :
    ∃ t', ((idle listed).run policy (before ++ .event i now (.outcome (.error fault)) ::
        (between ++ .event i now' (.probes ps) ::
          (later ++ [.event i now'' .pauseOver])))).calls[i]? =
        some ⟨n, k + 1, .attempting t'⟩ ∧
      (t'.url ≠ t.url ↔
        ((idle listed).run policy before).selector.currentUrl n = some t.url ∨
          ∀ p, Probe.FirstFastest id (ps.filter fun p =>
              some p.url ≠ ((idle listed).run policy before).selector.currentUrl n) p →
            p.url ≠ t.url) := by
  have hcandidates : ((idle listed).run policy before).selector.candidates n ≠ [] := by
    rw [Selector.candidates, listed_run]
    exact hlisted
  have hcoherent : ((idle listed).run policy before).selector.Coherent :=
    coherent_run (Selector.coherent_unsettled listed) before
  obtain ⟨p, hp, hiff⟩ := exists_choice_ne_iff
    (((idle listed).run policy before).selector.currentUrl n) helse
  obtain ⟨t', hurl, hretried⟩ := exists_retry hcoherent hattempt hsignal hretry hcandidates
    hbetween hlater hp now now' now''
  rw [run_append]
  exact ⟨t', hretried, hurl ▸ hiff⟩

/-! ### Two calls over two endpoints -/

/-- Two endpoints of one network. -/
def twoListed : Table NetworkId (List String) := .ofList [(1, ["http://a", "http://b"])]

/-- Both are of use, the first one is the faster. -/
def bothUp : List Probe :=
  [⟨1, "http://a", some (.ofMillis 10)⟩, ⟨1, "http://b", some (.ofMillis 30)⟩]

/-- The faster endpoint is chosen, and two calls begin over it. -/
def twoBegun : List (Move Unit) := [.choice 1 none bothUp (.running 0), .start 1, .start 1]

/-- The attempt of one call fails, and it switches and pauses. -/
def failsOver (i : Nat) : List (Move Unit) :=
  [.event i (.running 0) (.outcome (.error (.failover "revert"))),
    .event i (.running 0) (.probes bothUp), .event i (.running 0) .pauseOver]

/-- The call that fails first finds its endpoint in the table, and leaves it. -/
theorem first_retried_elsewhere :
    ((idle twoListed).run {} twoBegun).calls[0]? =
        some ⟨1, 1, .attempting ⟨0, 1, "http://a"⟩⟩ ∧
      ∃ t', ((idle twoListed).run {} (twoBegun ++ failsOver 0)).calls[0]? =
        some ⟨1, 2, .attempting t'⟩ ∧ t'.url ≠ "http://a" := by
  have hattempt : ((idle twoListed).run {} twoBegun).calls[0]? =
      some ⟨1, 1, .attempting ⟨0, 1, "http://a"⟩⟩ := by rfl
  have htable : ((idle twoListed).run {} twoBegun).selector.currentUrl 1 = some "http://a" := by rfl
  obtain ⟨t', hretried, hiff⟩ := @retried_elsewhere_iff Unit {} twoListed twoBegun [] [] 0 1 1
    ⟨0, 1, "http://a"⟩ (.failover "revert") bothUp hattempt rfl (by decide) (by decide) (by simp)
    (by simp) (by decide) (.running 0) (.running 0) (.running 0)
  exact ⟨hattempt, t', hretried, hiff.mpr (.inl htable)⟩

/-- The call that fails second finds the other endpoint in the table. It leaves that one, and is
retried where it has just failed. -/
theorem second_retried_where_it_failed :
    ((idle twoListed).run {} (twoBegun ++ failsOver 0)).calls[1]? =
        some ⟨1, 1, .attempting ⟨0, 1, "http://a"⟩⟩ ∧
      (∃ p ∈ bothUp, p.isHealthy = true ∧ p.url ≠ "http://a") ∧
      ((idle twoListed).run {} (twoBegun ++ failsOver 0 ++ failsOver 1)).calls[1]? =
        some ⟨1, 2, .attempting ⟨2, 1, "http://a"⟩⟩ :=
  ⟨by rfl, by decide, by rfl⟩

end Calls

end PriceRelay
