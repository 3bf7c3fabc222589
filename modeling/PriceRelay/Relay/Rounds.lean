import PriceRelay.Relay.State
/-!
# Work under way

Everything the relay does takes a while: it is begun, then looked at whenever something it waits for
may be there, and each time goes on as far as it can. A piece of work that is looked at too early
stays as it is.

* `ProbeRound` chooses an endpoint for a network,
* `CallRun` is a call with failover, `FetchRun` a fetch, `BatchRun` a batch of quotes,
* `CycleRun` is a fetch cycle.

The machines of `PriceRelay.Failover` and `PriceRelay.Fetch` say what happens at each step; here is
what they wait for, and when it is there.
-/

namespace PriceRelay

variable {σ α : Type}

/-- How many steps a piece of work may take without a pause. Each run of an operation takes
three. -/
def Relay.patience : Nat := 100000000000

/-! ### Choosing an endpoint -/

/-- A choice under way, or what came of it. -/
inductive ProbeRound
  /-- probes under way -/
  | probing (network : NetworkId) (avoid : Option String) (probes : List (Awaited Probe))
  /-- the choice was made; nothing if no candidate was healthy -/
  | done (answer : Except Fault (Option Transport))

namespace ProbeRound

/-- Begin a choice. -/
def begin (n : NetworkId) (avoid : Option String) (r : Relay σ) : ProbeRound × Relay σ :=
  match r.selector.toProbe n with
  | .error e => (.done (.error e), r)
  | .ok urls =>
    let (probes, r) := r.startProbes n urls
    (.probing n avoid probes, r)

/-- Go on. -/
def poll (p : ProbeRound) (r : Relay σ) : ProbeRound × Relay σ :=
  match p with
  | .done a => (.done a, r)
  | .probing n avoid probes =>
    match probes.mapM (Awaited.now? · r.now) with
    | none => (.probing n avoid probes, r)
    | some ps =>
      let (t, selector) := r.selector.settle n avoid ps r.moment
      (.done (.ok t), { r with selector := selector })

/-- Begin a choice away from the endpoint that the table holds now. -/
def beginSwitch (n : NetworkId) (r : Relay σ) : ProbeRound × Relay σ :=
  begin n (r.selector.currentUrl n) r

/-- What came of a switch: where nothing was chosen there is nothing to go on with. -/
def switched (n : NetworkId) (answer : Except Fault (Option Transport)) : Except Fault Transport :=
  answer.bind fun t => match t with
    | some t => .ok t
    | none => .error (.noTransport n)

/-- Begin a choice for each of some networks. -/
def beginAll (r : Relay σ) : List NetworkId → List ProbeRound × Relay σ
  | [] => ([], r)
  | n :: ns =>
    let (p, r) := begin n none r
    let (ps, r) := beginAll r ns
    (p :: ps, r)

/-- What came of it. -/
def answer? : ProbeRound → Option (Except Fault (Option Transport))
  | .probing _ _ _ => none
  | .done a => some a

/-- What it waits for. -/
def timers (now : Duration) : ProbeRound → List (Duration × Nat)
  | .probing _ _ probes => probes.filterMap fun p => p.timer? now
  | .done _ => []

end ProbeRound

/-! ### Waiting -/

/-- What a machine waits for. -/
inductive Wait (α : Type)
  /-- nothing -/
  | nothing
  /-- a permit that was not free -/
  | permit (ticket : Ticket)
  /-- the outcome of a request -/
  | outcome (a : Awaited α)
  /-- probes -/
  | probes (ps : List (Awaited Probe))
  /-- the end of a pause -/
  | pause (a : Awaited Unit)

namespace Wait

/-- The times at which something may be there. -/
def timers (now : Duration) : Wait α → List (Duration × Nat)
  | nothing => []
  | permit _ => []
  | outcome a => (a.timer? now).toList
  | probes ps => ps.filterMap fun p => p.timer? now
  | pause a => (a.timer? now).toList

/-- What has happened to a call by now. -/
def event? (now : Duration) : Wait (Except Fault α) → Option (FailoverCall.Event α)
  | outcome a => (a.now? now).map .outcome
  | probes ps => (ps.mapM (Awaited.now? · now)).map .probes
  | pause a => (a.now? now).map fun _ => .pauseOver
  | _ => none

/-- Whether what is there ends a request. -/
def endsRequest : Wait α → Bool
  | outcome _ => true
  | _ => false

end Wait

/-- An operation to run over an endpoint. -/
structure Operation (σ α : Type) where
  /-- begin it, told how many times it was begun before -/
  start : Nat → Transport → σ → Delayed (Except Fault α) × σ
  /-- it has come to its end -/
  done : σ → σ

/-- The read of a contract. -/
def Operation.readRound (p : Providers σ) (address : String) : Operation σ Round where
  start _ t := p.readRound t address
  done := p.readDone

/-- Begin what a call waits for next. `tried` are the handles it was run over. -/
def Relay.await (op : Operation σ α) (call : FailoverCall α) (tried : List Transport)
    (r : Relay σ) : Wait (Except Fault α) × List Transport × Relay σ :=
  match call.phase with
  | .attempting t =>
    let (d, outside) := op.start tried.length t r.outside
    let (a, r) := { r with outside := outside }.after d
    (.outcome a, tried ++ [t], r)
  | .switching _ _ =>
    let (ps, r) := r.startProbes call.network (r.selector.candidates call.network)
    (.probes ps, tried, r)
  | .pausing _ =>
    let (a, r) := r.after ⟨r.tunables.failover.retryDelay, ()⟩
    (.pause a, tried, r)
  | .finished _ => (.nothing, tried, r)

/-! ### Calls -/

/-- A call under way. -/
structure CallRun (α : Type) where
  /-- the call -/
  call : FailoverCall α
  /-- what it waits for -/
  wait : Wait (Except Fault α)
  /-- the handles it was run over -/
  tried : List Transport

namespace CallRun

/-- Begin a call. -/
def begin (op : Operation σ α) (n : NetworkId) (r : Relay σ) : CallRun α × Relay σ :=
  let call := FailoverCall.begin r.selector n
  let (wait, tried, r) := r.await op call []
  (⟨call, wait, tried⟩, r)

/-- One step, if something is there. -/
def step? (op : Operation σ α) (c : CallRun α) (r : Relay σ) : Option (CallRun α × Relay σ) :=
  (c.wait.event? r.now).map fun e =>
    let r := if c.wait.endsRequest then { r with outside := op.done r.outside } else r
    let (call, selector) := c.call.step r.tunables.failover r.moment e r.selector
    let (wait, tried, r) := { r with selector := selector }.await op call c.tried
    (⟨call, wait, tried⟩, r)

/-- Go on for so many steps at most. -/
def pollFor (op : Operation σ α) : Nat → CallRun α → Relay σ → CallRun α × Relay σ
  | 0, c, r => (c, r)
  | fuel + 1, c, r =>
    match c.step? op r with
    | none => (c, r)
    | some (c, r) => pollFor op fuel c r

/-- Go on. -/
def poll (op : Operation σ α) (c : CallRun α) (r : Relay σ) : CallRun α × Relay σ :=
  c.pollFor op Relay.patience r

end CallRun

/-! ### Fetches -/

/-- A fetch under way. -/
structure FetchRun where
  /-- the fetch -/
  fetch : Fetch
  /-- what it waits for; a fetch that waits for nothing and has no permit has not begun -/
  wait : Wait (Except Fault Round) := .nothing
  /-- the handles it was run over -/
  tried : List Transport := []

namespace FetchRun

/-- Take on what has become of a fetch: do its writes, begin what it waits for next, and give the
permit back if it is finished. -/
def proceed (p : FetchRun) (fetch : Fetch) (writes : List Write) (r : Relay σ) :
    FetchRun × Relay σ :=
  let r := r.writeAll writes
  match fetch.phase with
  | .calling call =>
    let (wait, tried, r) := r.await (.readRound r.providers fetch.address) call p.tried
    (⟨fetch, wait, tried⟩, r)
  | .finished _ => (⟨fetch, .nothing, p.tried⟩, r.releasePermit)
  | .waiting => (⟨fetch, .nothing, p.tried⟩, r)

/-- The permit is there. -/
def admitted (p : FetchRun) (r : Relay σ) : FetchRun × Relay σ :=
  let (fetch, writes) := p.fetch.enter r.moment r.selector
  p.proceed fetch writes r

/-- One step on behalf of a task, if there is one to take. -/
def step? (owner : Nat) (p : FetchRun) (r : Relay σ) : Option (FetchRun × Relay σ) :=
  match p.fetch.phase with
  | .finished _ => none
  | .waiting =>
    match p.wait with
    | .permit ticket =>
      (r.limiter.claim ticket).map fun limiter => p.admitted { r with limiter := limiter }
    | _ =>
      match r.limiter.acquire owner with
      | (none, limiter) => some (p.admitted { r with limiter := limiter })
      | (some ticket, limiter) => some ({ p with wait := .permit ticket }, { r with limiter })
  | .calling _ =>
    (p.wait.event? r.now).map fun e =>
      let r := if p.wait.endsRequest then { r with outside := r.providers.readDone r.outside }
        else r
      let ((fetch, writes), selector) :=
        p.fetch.step r.tunables.failover r.moment e r.selector
      p.proceed fetch writes { r with selector := selector }

/-- Go on for so many steps at most. -/
def pollFor (owner : Nat) : Nat → FetchRun → Relay σ → FetchRun × Relay σ
  | 0, p, r => (p, r)
  | fuel + 1, p, r =>
    match p.step? owner r with
    | none => (p, r)
    | some (p, r) => pollFor owner fuel p r

/-- Go on. -/
def poll (owner : Nat) (p : FetchRun) (r : Relay σ) : FetchRun × Relay σ :=
  p.pollFor owner Relay.patience r

/-- Go on with each of some fetches, in their order. -/
def pollAll (owner : Nat) : List FetchRun → Relay σ → List FetchRun × Relay σ
  | [], r => ([], r)
  | p :: ps, r =>
    let (p, r) := p.poll owner r
    let (ps, r) := pollAll owner ps r
    (p :: ps, r)

end FetchRun

/-! ### Batches -/

/-- A batch under way. -/
structure BatchRun where
  /-- the batch -/
  batch : Batch
  /-- what it waits for; a batch that waits for nothing and has no permit has not begun -/
  wait : Wait (Except Fault (List Quote)) := .nothing

namespace BatchRun

/-- The permit is there: send the request. -/
def admitted (b : BatchRun) (r : Relay σ) : BatchRun × Relay σ :=
  match r.providers.quotes with
  | none => (b, r)
  | some quotes =>
    let (d, outside) := quotes b.batch.ids r.outside
    let (a, r) := { r with outside := outside }.after d
    (⟨b.batch.enter, .outcome a⟩, r)

/-- One step on behalf of a task, if there is one to take. -/
def step? (owner : Nat) (b : BatchRun) (r : Relay σ) : Option (BatchRun × Relay σ) :=
  match b.batch.phase with
  | .finished _ => none
  | .waiting =>
    match b.wait with
    | .permit ticket =>
      (r.limiter.claim ticket).map fun limiter => b.admitted { r with limiter := limiter }
    | _ =>
      match r.limiter.acquire owner with
      | (none, limiter) => some (b.admitted { r with limiter := limiter })
      | (some ticket, limiter) => some ({ b with wait := .permit ticket }, { r with limiter })
  | .asking =>
    match b.wait with
    | .outcome a =>
      (a.now? r.now).map fun reply =>
        let (batch, writes) := b.batch.heard r.quoteSymbols r.moment reply
        (⟨batch, .nothing⟩, (r.writeAll writes).releasePermit)
    | _ => none

/-- Go on. A batch takes three steps in all. -/
def poll (owner : Nat) (b : BatchRun) (r : Relay σ) : BatchRun × Relay σ :=
  (List.range 3).foldl (fun s _ => (s.1.step? owner s.2).getD s) (b, r)

end BatchRun

/-! ### Cycles -/

/-- A cycle under way. -/
structure CycleRun where
  /-- what it set out to do -/
  plan : CyclePlan
  /-- its fetches -/
  fetches : List FetchRun
  /-- its batch -/
  batch : BatchRun
  /-- whether the batch goes on before the fetches the next time; the two take turns -/
  batchFirst : Bool := false
  /-- the counts, once it is over -/
  report : Option CycleReport := none

namespace CycleRun

/-- Begin a cycle over the tracked feeds. -/
def begin (r : Relay σ) : CycleRun :=
  let hasService := r.providers.quotes.isSome
  let plan := CyclePlan.ofFeeds hasService r.cache.tracked
  { plan, fetches := plan.fetches.map fun f => { fetch := f }
    batch := { batch := plan.batch hasService } }

/-- The counts, if everything has come to its end. -/
def conclude (c : CycleRun) (r : Relay σ) : CycleRun × Relay σ :=
  match c.fetches.mapM fun p => p.fetch.answer?, c.batch.batch.answer? with
  | some fetched, some stored =>
    let report := CycleReport.ofAnswers c.plan fetched stored
    ({ c with report := some report }, r.tell report.line)
  | _, _ => (c, r)

/-- Go on. -/
def poll (owner : Nat) (c : CycleRun) (r : Relay σ) : CycleRun × Relay σ :=
  if c.report.isSome then (c, r)
  else if c.batchFirst then
    let (batch, r) := c.batch.poll owner r
    let (fetches, r) := FetchRun.pollAll owner c.fetches r
    { c with fetches := fetches, batch := batch, batchFirst := false }.conclude r
  else
    let (fetches, r) := FetchRun.pollAll owner c.fetches r
    let (batch, r) := c.batch.poll owner r
    { c with fetches := fetches, batch := batch, batchFirst := true }.conclude r

/-- What it waits for. -/
def timers (now : Duration) (c : CycleRun) : List (Duration × Nat) :=
  c.fetches.flatMap (fun p => p.wait.timers now) ++ c.batch.wait.timers now

end CycleRun

end PriceRelay
