import PriceRelay.Proofs.Relay.Call
/-!
# The counter of a call

A call numbers its attempts in 32 bits, and it may be allowed as many retries as these can count.
The first attempt has number one, so there is one attempt more than there are retries: where every
number of 32 bits is allowed as a number of retries, the last attempt finds no number.

* `FailoverCall.Course` are the runs of a call among others, by the retries made so far,
* `FailoverCall.Numbered` says that the counter is right and that no retry is made too many, and
  `FailoverCall.Course.numbered` that it is so as long as the attempts can be counted,
* `FailoverCall.Course.exists_attempting` leads a call to every retry that it is allowed,
* `FailoverCall.numbered_iff` says for which numbers of retries the counter is right in every run.
-/

namespace PriceRelay

namespace FailoverCall

variable {α : Type} (policy : FailoverPolicy) (listed : Table NetworkId (List String))
  (n : NetworkId)

/-- The runs of a call for network `n`, by the number of retries made so far. Whatever others do to
the selector in between, they leave the candidates as they are listed. -/
inductive Course : Nat → FailoverCall α → Prop
  /-- it begins -/
  | begin {s : Selector} : s.listed = listed → Course 0 (.begin s n)
  /-- an attempt has come to its end -/
  | heard {k c} {s : Selector} (now : Moment) (outcome : Except Fault α) : Course k c →
      s.listed = listed → Course k (c.step policy now (.outcome outcome) s).1
  /-- the candidates have been probed -/
  | probed {k c} {s : Selector} (now : Moment) (answers : Nat → Option Duration) : Course k c →
      s.listed = listed → Course k (c.step policy now (.probes (s.probes n answers)) s).1
  /-- the pause is over, and the next attempt is made -/
  | retried {k number t} {s : Selector} (now : Moment) : Course k ⟨n, number, .pausing t⟩ →
      Course (k + 1) (step policy now .pauseOver ⟨n, number, .pausing t⟩ s).1

/-- The counter is right after `k` retries, and there is one left for a call that has set out to
make it. -/
structure Numbered (k : Nat) (c : FailoverCall α) : Prop where
  /-- the first attempt has number one -/
  attempt : c.attempt.toNat = k + 1
  /-- no retry is made too many -/
  retries_le : k ≤ policy.maxRetries.toNat
  /-- nor is one about to be made -/
  retries_lt : match c.phase with
    | .switching _ _ | .pausing _ => k < policy.maxRetries.toNat
    | _ => True

variable {policy listed n} {s : Selector} {k : Nat} {c : FailoverCall α}

theorem numbered_begin (s : Selector) (n : NetworkId) :
    Numbered policy 0 (begin s n : FailoverCall α) := by
  rw [begin]
  split
  · exact ⟨rfl, Nat.zero_le _, trivial⟩
  · exact ⟨rfl, Nat.zero_le _, trivial⟩

/-- A call sets out to switch only if its number leaves it a retry. -/
theorem Numbered.step_outcome (h : Numbered policy k c) (now : Moment)
    (outcome : Except Fault α) (s : Selector) :
    Numbered policy k (c.step policy now (.outcome outcome) s).1 := by
  obtain ⟨m, number, phase⟩ := c
  cases phase with
  | attempting t =>
    rcases FailoverCall.step_outcome policy s m number t now outcome with
      ⟨hend, -⟩ | ⟨fault, -, -, hle, hswitch⟩
    · rw [hend]
      exact ⟨h.attempt, h.retries_le, trivial⟩
    · have hnumber : number.toNat = k + 1 := h.attempt
      have hlt : k < policy.maxRetries.toNat := by
        rw [UInt32.le_iff_toNat_le, hnumber] at hle
        exact hle
      rw [hswitch]
      exact ⟨h.attempt, h.retries_le, hlt⟩
  | switching avoid fault => exact h
  | pausing t => exact h
  | finished answer => exact h

theorem Numbered.step_probes (h : Numbered policy k c) (now : Moment) (ps : List Probe)
    (s : Selector) : Numbered policy k (c.step policy now (.probes ps) s).1 := by
  obtain ⟨m, number, phase⟩ := c
  cases phase with
  | switching avoid fault =>
    rcases hsettle : s.settle m avoid ps now with ⟨_ | t, s'⟩
    · rw [step_probes_none policy fault hsettle]
      exact ⟨h.attempt, h.retries_le, trivial⟩
    · rw [step_probes_some policy fault hsettle]
      exact ⟨h.attempt, h.retries_le, h.retries_lt⟩
  | attempting t => exact h
  | pausing t => exact h
  | finished answer => exact h

/-- The next attempt gets the next number, if there is one. -/
theorem Numbered.step_pauseOver (hmax : policy.maxRetries.toNat + 1 < UInt32.size)
    {number : UInt32} {t : Transport}
    (h : Numbered policy k (⟨n, number, .pausing t⟩ : FailoverCall α)) (now : Moment)
    (s : Selector) : Numbered policy (k + 1)
      (step policy now .pauseOver (⟨n, number, .pausing t⟩ : FailoverCall α) s).1 where
  attempt := by
    have hnumber : number.toNat = k + 1 := h.attempt
    have hlt : k + 1 + 1 < UInt32.size := Nat.lt_of_le_of_lt (Nat.succ_le_succ h.retries_lt) hmax
    calc (number + 1).toNat = (number.toNat + 1) % UInt32.size := UInt32.toNat_add number 1
      _ = (k + 1 + 1) % UInt32.size := by rw [hnumber]
      _ = k + 1 + 1 := Nat.mod_eq_of_lt hlt
  retries_le := h.retries_lt
  retries_lt := trivial

/-- **The counter is right in every run**, as long as the attempts can be counted. -/
theorem Course.numbered (hmax : policy.maxRetries.toNat + 1 < UInt32.size)
    (h : Course policy listed n k c) : Numbered policy k c := by
  induction h with
  | begin _ => exact numbered_begin _ n
  | heard now outcome _ _ ih => exact ih.step_outcome now outcome _
  | probed now answers _ _ ih => exact ih.step_probes now _ _
  | retried now _ ih => exact ih.step_pauseOver hmax now _

/-! ### A call that uses up its retries -/

/-- Where there are candidates, and each of them answers, a switch finds one. -/
theorem bestAvoiding_probes_ne_none (hlisted : s.candidates n ≠ []) (avoid : Option String) :
    Probe.bestAvoiding avoid (s.probes n fun _ => some 1) ≠ none := by
  intro hnone
  obtain ⟨url, urls, hurls⟩ := List.exists_cons_of_ne_nil hlisted
  have hmem : ⟨n, url, some 1⟩ ∈ s.probes n fun _ => some 1 := by
    rw [Selector.probes, hurls, List.mapIdx_cons]
    exact List.mem_cons_self
  have hspeed := Probe.bestAvoiding_eq_none_iff.mp hnone _ hmem
  have hanswered : Probe.speed ⟨n, url, some 1⟩ = some 1 :=
    Probe.speed_eq_some_iff.mpr ⟨rfl, Nat.one_ne_zero⟩
  exact Option.some_ne_none 1 (hanswered.symm.trans hspeed)

/-- An attempt fails in a way that asks for another endpoint, all candidates answer, and the call
pauses: there is a next attempt, with the next number. -/
theorem Course.exists_retry (hcoherent : s.Coherent) (hs : s.listed = listed)
    (hlisted : s.candidates n ≠ []) {number : UInt32} {t : Transport}
    (hretry : number ≤ policy.maxRetries)
    (h : Course policy listed n k (⟨n, number, .attempting t⟩ : FailoverCall α)) :
    ∃ t', Course policy listed n (k + 1) (⟨n, number + 1, .attempting t'⟩ : FailoverCall α) := by
  obtain ⟨p, hp⟩ := Option.ne_none_iff_exists'.mp
    (bestAvoiding_probes_ne_none hlisted (s.currentUrl n))
  have hswitching := h.heard (.running 0) (.error (.failover "")) hs
  rw [step_outcome_error rfl hretry hlisted] at hswitching
  have hpausing := hswitching.probed (.running 0) (fun _ => some 1) hs
  obtain ⟨t', -, hstep⟩ := FailoverCall.step_probes hcoherent hp (.running 0)
  rw [hstep] at hpausing
  exact ⟨t', hpausing.retried (s := s) (.running 0)⟩

/-- **Every retry that is allowed is made in some run.** The number of the attempt is what 32 bits
hold of it. -/
theorem Course.exists_attempting (hcoherent : s.Coherent) {a : ActiveEndpoint}
    (hentry : s.table.get? n = some a) (hs : s.listed = listed) (hlisted : s.candidates n ≠ [])
    (hk : k ≤ policy.maxRetries.toNat) :
    ∃ t, Course policy listed n k
      (⟨n, UInt32.ofNat (k + 1), .attempting t⟩ : FailoverCall α) := by
  induction k with
  | zero =>
    have hbegin : (FailoverCall.begin s n : FailoverCall α) =
        ⟨n, 1, .attempting a.transport⟩ := by
      rw [FailoverCall.begin, Selector.bestTransport, hentry]
    exact ⟨a.transport, hbegin ▸ .begin hs⟩
  | succ k ih =>
    obtain ⟨t, hattempt⟩ := ih (Nat.le_of_succ_le hk)
    have hle : UInt32.ofNat (k + 1) ≤ policy.maxRetries := by
      rw [UInt32.le_iff_toNat_le, UInt32.toNat_ofNat']
      exact Nat.le_trans (Nat.mod_le _ _) hk
    obtain ⟨t', hretried⟩ := hattempt.exists_retry hcoherent hs hlisted hle
    exact ⟨t', UInt32.ofNat_add (k + 1) 1 ▸ hretried⟩

/-- **For which numbers of retries the counter is right.** A network has candidates: the counter of
a call for it is right in every run exactly when one attempt more than there are retries can be
counted. -/
theorem numbered_iff {listed : Table NetworkId (List String)} {urls : List String}
    (hlisted : listed.get? n = some urls) (hurls : urls ≠ []) :
    (∀ (α : Type) (k : Nat) (c : FailoverCall α), Course policy listed n k c →
      Numbered policy k c) ↔ policy.maxRetries.toNat + 1 < UInt32.size := by
  refine ⟨fun h => ?_, fun hmax α k c hc => hc.numbered hmax⟩
  -- an endpoint is chosen, and then every retry is made
  let s := ((Selector.unsettled listed).publish n "" 0 (.running 0)).2
  have hcoherent : s.Coherent := (Selector.coherent_unsettled listed).publish n "" 0 (.running 0)
  have hs : s.listed = listed := Selector.handle_listed (.unsettled listed) n ""
  have hentry := Selector.get?_publish (.unsettled listed) n "" 0 (.running 0) n
  rw [if_pos rfl] at hentry
  have hcandidates : s.candidates n ≠ [] := by
    rw [Selector.candidates, hs, hlisted]
    exact hurls
  obtain ⟨t, hlast⟩ := Course.exists_attempting (α := Unit) hcoherent hentry hs hcandidates
    (Nat.le_refl policy.maxRetries.toNat)
  have hnumber : (UInt32.ofNat (policy.maxRetries.toNat + 1)).toNat =
      policy.maxRetries.toNat + 1 := (h Unit _ _ hlast).attempt
  exact hnumber ▸ UInt32.toNat_lt _

end FailoverCall

end PriceRelay
