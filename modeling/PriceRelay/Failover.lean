import PriceRelay.Endpoint.Selector
/-!
# Calls with failover

A call runs an operation over the endpoint of a network. If the operation fails in a way that asks
for another endpoint, the candidates are probed at once, another endpoint is preferred, and after a
pause the operation is run again, so many times and no more.

A call is a machine that waits for one thing at a time. Between two events anything may happen to
the selector, which other calls and the probe loops share; an event is one step in which nothing
else happens.

* `FailoverCall.begin` starts a call,
* `FailoverCall.heard` takes the outcome of the operation, `FailoverCall.probed` that of the probes,
  and `FailoverCall.rested` ends the pause,
* `FailoverCall.step` is the three of them as one function of an event.
-/

namespace PriceRelay

/-- How often to run an operation again, and how long to pause before. -/
structure FailoverPolicy where
  /-- how many times an operation may be run again -/
  maxRetries : UInt32 := 1
  /-- pause before it is run again -/
  retryDelay : Duration := .ofMillis 2000
deriving DecidableEq, Repr

/-- What a call waits for. -/
inductive FailoverCall.Phase (α : Type)
  /-- the outcome of the operation over a handle -/
  | attempting (transport : Transport)
  /-- the probes of a switch away from `avoid`, made because of `fault` -/
  | switching (avoid : Option String) (fault : Fault)
  /-- the end of the pause before the next attempt -/
  | pausing (next : Transport)
  /-- nothing any more -/
  | finished (answer : Except Fault α)

/-- A call for one network. -/
structure FailoverCall (α : Type) where
  /-- the network -/
  network : NetworkId
  /-- number of the attempt; the first is one -/
  attempt : UInt32
  /-- what the call waits for -/
  phase : FailoverCall.Phase α

namespace FailoverCall

variable {α : Type}

/-- Start a call over the endpoint of a network. -/
def begin (s : Selector) (n : NetworkId) : FailoverCall α :=
  match s.bestTransport n with
  | .ok t => ⟨n, 1, .attempting t⟩
  | .error e => ⟨n, 1, .finished (.error e)⟩

/-- Whether a failed attempt is followed by a switch. -/
def shouldSwitch (policy : FailoverPolicy) (c : FailoverCall α) (fault : Fault) : Bool :=
  fault.isFailover && c.attempt ≤ policy.maxRetries

/-- The operation has failed: give up, or set out to switch away from the endpoint that the table
holds now. A network without candidates cannot be switched. -/
def failed (policy : FailoverPolicy) (s : Selector) (fault : Fault) (c : FailoverCall α) :
    FailoverCall α :=
  if c.shouldSwitch policy fault then
    match s.toProbe c.network with
    | .ok _ => { c with phase := .switching (s.currentUrl c.network) fault }
    | .error _ => { c with phase := .finished (.error fault) }
  else { c with phase := .finished (.error fault) }

/-- The operation has come to its end. -/
def heard (policy : FailoverPolicy) (s : Selector) (outcome : Except Fault α)
    (c : FailoverCall α) : FailoverCall α :=
  match c.phase with
  | .attempting _ =>
    match outcome with
    | .ok a => { c with phase := .finished (.ok a) }
    | .error fault => c.failed policy s fault
  | _ => c

/-- The probes of a switch have come to their end: publish the endpoint they chose, or give up with
the fault that asked for the switch. -/
def probed (s : Selector) (probes : List Probe) (now : Moment) (c : FailoverCall α) :
    FailoverCall α × Selector :=
  match c.phase with
  | .switching avoid fault =>
    match s.settle c.network avoid probes now with
    | (some t, s') => ({ c with phase := .pausing t }, s')
    | (none, s') => ({ c with phase := .finished (.error fault) }, s')
  | _ => (c, s)

/-- The pause is over. -/
def rested (c : FailoverCall α) : FailoverCall α :=
  match c.phase with
  | .pausing t => { c with attempt := c.attempt + 1, phase := .attempting t }
  | _ => c

/-- What may happen to a call. -/
inductive Event (α : Type)
  /-- the operation has come to its end -/
  | outcome (o : Except Fault α)
  /-- the probes have come to their end -/
  | probes (ps : List Probe)
  /-- the pause is over -/
  | pauseOver

/-- Take an event; one that the call does not wait for changes nothing. -/
def step (policy : FailoverPolicy) (now : Moment) (e : Event α) (c : FailoverCall α)
    (s : Selector) : FailoverCall α × Selector :=
  match e with
  | .outcome o => (c.heard policy s o, s)
  | .probes ps => c.probed s ps now
  | .pauseOver => (c.rested, s)

/-- The answer, once there is one. -/
def answer? (c : FailoverCall α) : Option (Except Fault α) :=
  match c.phase with
  | .finished a => some a
  | _ => none

end FailoverCall

end PriceRelay
