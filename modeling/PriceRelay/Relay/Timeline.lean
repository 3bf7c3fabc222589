import PriceRelay.Relay.Loops
/-!
# The timeline

Time stands still while anything can go on, and then jumps to the next moment at which something is
there. At such a moment the caller goes on first, then the loops, in the order in which what they
waited for was set up. Whatever is woken by the work of another waits for its turn in line.

* `Timeline` is the relay with its loops,
* `Errand` is what the caller waits for, `Timeline.run` waits for it,
* `Timeline.runUntil` waits for the loops alone,
* `Timeline.start` and `Timeline.stop` are for the loops.
-/

namespace PriceRelay

variable {σ τ ρ : Type}

/-- The relay and its loops. -/
structure Timeline (σ : Type) where
  /-- the relay -/
  relay : Relay σ
  /-- the loops; the first of them is task one -/
  loops : List LoopRun := []
  /-- whether the loops were told to stop -/
  stopping : Bool := false

/-- Something the caller waits for. -/
structure Errand (σ τ ρ : Type) where
  /-- go on -/
  poll : τ → Timeline σ → τ × Timeline σ
  /-- what came of it, once it is over -/
  answer? : τ → Option ρ
  /-- the times at which it may go on -/
  timers : Duration → τ → List (Duration × Nat)

namespace Timeline

/-- Let a task go on. If its own work has woken it, its turn comes after all others. -/
def pollTask (task : Nat) (t : Timeline σ) : Timeline σ :=
  match t.loops[task - 1]? with
  | none => t
  | some l =>
    let (l, r) := l.poll task t.stopping t.relay
    let woken := if task ∈ r.woken then r.woken.erase task ++ [task] else r.woken
    { t with relay := { r with woken := woken }, loops := t.loops.set (task - 1) l }

/-- Timers of the loops with their tasks. -/
def loopTimers (t : Timeline σ) : List ((Duration × Nat) × Nat) :=
  (t.loops.zipIdx 1).flatMap fun p => (p.1.timers t.relay.now).map fun timer => (timer, p.2)

/-- The tasks of some timers in the order of the timers, each once. -/
def inTurn (timers : List ((Duration × Nat) × Nat)) : List Nat :=
  ((timers.mergeSort fun a b => a.1.2 ≤ b.1.2).map Prod.snd).eraseDups

/-- Jump to the next moment at which something is there, given the caller's own timers; says whether
the caller goes on. Nothing is left to wait for if there is no such moment. -/
def jump (caller : List (Duration × Nat)) (t : Timeline σ) : Option (Bool × Timeline σ) :=
  let loops := t.loopTimers
  (caller.map Prod.fst ++ loops.map fun p => p.1.1).min?.map fun due =>
    let tasks := inTurn (loops.filter fun p => p.1.1 = due)
    (caller.any fun p => p.1 = due,
      { t with relay := { t.relay with now := due, woken := t.relay.woken ++ tasks } })

/-- Wait for an errand, for so many turns at most. -/
def runFor (e : Errand σ τ ρ) : Nat → (callersTurn : Bool) → τ → Timeline σ →
    Option (ρ × τ) × Timeline σ
  | 0, _, _, t => (none, t)
  | fuel + 1, true, state, t =>
    let (state, t) :=
      e.poll state { t with relay := { t.relay with woken := t.relay.woken.erase 0 } }
    match e.answer? state with
    | some answer =>
      (some (answer, state), { t with relay := { t.relay with woken := t.relay.woken.erase 0 } })
    | none => runFor e fuel false state t
  | fuel + 1, false, state, t =>
    match t.relay.woken.filter (· ≠ 0) with
    | task :: _ =>
      runFor e fuel false state
        (pollTask task { t with relay := { t.relay with woken := t.relay.woken.erase task } })
    | [] =>
      if 0 ∈ t.relay.woken then runFor e fuel true state t
      else match t.jump (e.timers t.relay.now state) with
        | none => (none, t)
        | some (callersTurn, t) => runFor e fuel callersTurn state t

/-- Wait for an errand that was begun. -/
def run (e : Errand σ τ ρ) (state : τ) (t : Timeline σ) : Option (ρ × τ) × Timeline σ :=
  runFor e Relay.patience true state t

/-- Let the next thing happen without a caller, if there is one. -/
def turn? (t : Timeline σ) : Option (Timeline σ) :=
  match t.relay.woken with
  | task :: woken => some (pollTask task { t with relay := { t.relay with woken := woken } })
  | [] => (t.jump []).map Prod.snd

/-- Let so many things happen at most, until something is the case. -/
def runUntilFor (p : Timeline σ → Bool) : Nat → Timeline σ → Timeline σ
  | 0, t => t
  | fuel + 1, t =>
    if p t then t
    else match t.turn? with
      | none => t
      | some t => runUntilFor p fuel t

/-- Let things happen until something is the case. -/
def runUntil (p : Timeline σ → Bool) (t : Timeline σ) : Timeline σ :=
  t.runUntilFor p Relay.patience

/-- Start loops. Those of an earlier stop are gone. -/
def start (kinds : List LoopRun.Kind) (t : Timeline σ) : Timeline σ :=
  let kept := if t.stopping then [] else t.loops
  let loops := kept ++ kinds.map fun kind => { kind := kind }
  let fresh := (List.range kinds.length).map fun i => kept.length + i + 1
  { t with
    relay := fresh.foldl Relay.wake t.relay
    loops := loops
    stopping := false }

/-- Tell the loops to stop. Those that wait for a tick hear it at once. -/
def stop (t : Timeline σ) : Timeline σ :=
  let idle := (t.loops.zipIdx 1).filterMap fun p => if p.1.isIdle then some p.2 else none
  { t with relay := idle.foldl Relay.wake t.relay, stopping := true }

/-- How many loops run. -/
def running (t : Timeline σ) : Nat := (t.loops.filter fun l => !l.hasStopped).length

end Timeline

/-! ### Errands -/

namespace Errand

/-- The errand of a piece of work that only the relay takes part in. -/
def ofRelay (poll : τ → Relay σ → τ × Relay σ) (answer? : τ → Option ρ)
    (timers : Duration → τ → List (Duration × Nat)) : Errand σ τ ρ where
  poll state t :=
    let (state, r) := poll state t.relay
    (state, { t with relay := r })
  answer? := answer?
  timers := timers

/-- A pause. The state says whether it is over. -/
def sleep (a : Awaited Unit) : Errand σ Bool Unit where
  poll _ t := ((a.now? t.relay.now).isSome, t)
  answer? done := if done then some () else none
  timers now _ := (a.timer? now).toList

/-- All loops to come to their end. The state says whether they have. -/
def join : Errand σ Bool Unit where
  poll _ t := (t.loops.all LoopRun.hasStopped, t)
  answer? done := if done then some () else none
  timers _ _ := []

/-- A choice of endpoint. -/
def probeRound : Errand σ ProbeRound (Except Fault (Option Transport)) :=
  ofRelay ProbeRound.poll ProbeRound.answer? ProbeRound.timers

/-- Several choices at once. -/
def probeRounds : Errand σ (List ProbeRound) Unit where
  poll rounds t :=
    let (rounds, r) := rounds.foldl (fun s p =>
      let (p, r) := p.poll s.2
      (s.1 ++ [p], r)) ([], t.relay)
    (rounds, { t with relay := r })
  answer? rounds := if rounds.all fun p => p.answer?.isSome then some () else none
  timers now rounds := rounds.flatMap (ProbeRound.timers now)

/-- Some probes. The state is those that are there, once all are. -/
def probes (ps : List (Awaited Probe)) : Errand σ (Option (List Probe)) (List Probe) where
  poll _ t := (ps.mapM (Awaited.now? · t.relay.now), t)
  answer? state := state
  timers now _ := ps.filterMap fun p => p.timer? now

/-- A call. -/
def call {α : Type} (op : Operation σ α) : Errand σ (CallRun α) (Except Fault α) :=
  ofRelay (fun c r => c.poll op r) (fun c => c.call.answer?) fun now c => c.wait.timers now

/-- A fetch. -/
def fetch : Errand σ FetchRun (Except Fault Record) :=
  ofRelay (fun p r => p.poll 0 r) (fun p => p.fetch.answer?) fun now p => p.wait.timers now

/-- A batch. -/
def batch : Errand σ BatchRun (Except Fault Nat) :=
  ofRelay (fun b r => b.poll 0 r) (fun b => b.batch.answer?) fun now b => b.wait.timers now

/-- A cycle. -/
def cycle : Errand σ CycleRun CycleReport :=
  ofRelay (fun c r => c.poll 0 r) (fun c => c.report) CycleRun.timers

end Errand

end PriceRelay
