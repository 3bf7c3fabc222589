import PriceRelay.Relay.Rounds
/-!
# The loops of the relay

Three kinds of loops run side by side: one per network that probes its candidates, one that fetches
all prices, and one that reports. The fetch loop has its first round at once; the others wait for
one interval first.

* `LoopRun` is a loop under way,
* `LoopRun.poll` lets it go on as far as it can.
-/

namespace PriceRelay

variable {σ : Type}

/-- What the rounds of a loop do. -/
inductive LoopRun.Kind
  /-- choose an endpoint for a network -/
  | probing (network : NetworkId)
  /-- fetch every tracked feed -/
  | fetching
  /-- log a report -/
  | reporting
deriving DecidableEq, Repr

/-- Where a loop stands. -/
inductive LoopRun.Phase
  /-- it has not begun -/
  | fresh
  /-- it waits for a tick or the stop; `stamp` is the place of its timer -/
  | idle (ticker : Ticker) (stamp : Nat)
  /-- it chooses an endpoint -/
  | probing (ticker : Ticker) (round : ProbeRound)
  /-- it runs a cycle -/
  | fetching (ticker : Ticker) (cycle : CycleRun)
  /-- it has stopped -/
  | stopped

/-- A loop under way. -/
structure LoopRun where
  /-- what its rounds do -/
  kind : LoopRun.Kind
  /-- where it stands -/
  phase : LoopRun.Phase := .fresh

/-- Log a report. How long ago an endpoint was chosen is a matter of the clock on the wall. -/
def Relay.logReport (r : Relay σ) : Relay σ :=
  (r.status.report fun _ => "<age>").foldl Relay.tell r.measured

namespace LoopRun

/-- The schedule of a loop that begins now. -/
def ticker (r : Relay σ) : Kind → Ticker
  | .probing _ => ⟨r.now + r.tunables.probeInterval, r.tunables.probeInterval⟩
  | .fetching => ⟨r.now, r.tunables.fetchInterval⟩
  | .reporting => ⟨r.now + r.tunables.statusInterval, r.tunables.statusInterval⟩

/-- Wait for the next tick. -/
def rest (l : LoopRun) (t : Ticker) (r : Relay σ) : LoopRun × Relay σ :=
  ({ l with phase := .idle t r.stamps }, { r with stamps := r.stamps + 1 })

/-- Begin a round. -/
def beginRound (l : LoopRun) (t : Ticker) (r : Relay σ) : LoopRun × Relay σ :=
  match l.kind with
  | .probing n =>
    let (round, r) := ProbeRound.begin n none r
    ({ l with phase := .probing t round }, r)
  | .fetching => ({ l with phase := .fetching t (.begin r) }, r)
  | .reporting => l.rest t r.logReport

/-- One step on behalf of a task, and whether another may follow. -/
def step (owner : Nat) (stopping : Bool) (l : LoopRun) (r : Relay σ) :
    (LoopRun × Relay σ) × Bool :=
  match l.phase with
  | .fresh => (l.rest (ticker r l.kind) r, true)
  | .idle t _ =>
    let (wake, r) := r.rouse (t.isDue r.now) stopping
    match wake with
    | none => ((l, r), false)
    | some .stop => (({ l with phase := .stopped }, r.wake 0), false)
    | some .tick => (l.beginRound t.taken r, true)
  | .probing t round =>
    let (round, r) := round.poll r
    match round.answer? with
    | none => (({ l with phase := .probing t round }, r), false)
    | some _ => (l.rest t r, true)
  | .fetching t cycle =>
    let (cycle, r) := cycle.poll owner r
    match cycle.report with
    | none => (({ l with phase := .fetching t cycle }, r), false)
    | some _ => (l.rest t r, true)
  | .stopped => ((l, r), false)

/-- Go on for so many steps at most. -/
def pollFor (owner : Nat) (stopping : Bool) : Nat → LoopRun → Relay σ → LoopRun × Relay σ
  | 0, l, r => (l, r)
  | fuel + 1, l, r =>
    match l.step owner stopping r with
    | (s, false) => s
    | ((l, r), true) => pollFor owner stopping fuel l r

/-- Go on. -/
def poll (owner : Nat) (stopping : Bool) (l : LoopRun) (r : Relay σ) : LoopRun × Relay σ :=
  l.pollFor owner stopping Relay.patience r

/-- Whether the loop waits for a tick. -/
def isIdle (l : LoopRun) : Bool :=
  match l.phase with
  | .idle _ _ => true
  | _ => false

/-- Whether the loop has stopped. -/
def hasStopped (l : LoopRun) : Bool :=
  match l.phase with
  | .stopped => true
  | _ => false

/-- What it waits for. -/
def timers (now : Duration) (l : LoopRun) : List (Duration × Nat) :=
  match l.phase with
  | .idle t stamp => if t.isDue now then [] else [(t.next, stamp)]
  | .probing _ round => round.timers now
  | .fetching _ cycle => cycle.timers now
  | _ => []

end LoopRun

end PriceRelay
