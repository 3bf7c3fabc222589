import PriceRelay.Relay.Timeline
/-!
# A scripted world

For a rehearsal the world outside follows scripts: each request takes the next step of the script it
belongs to, and the last step is repeated. What was asked is written down.

* `Script` is a script,
* `Rehearsal` are the scripts of one world and what was asked of it,
* `Rehearsal.providers` answer by the scripts.
-/

namespace PriceRelay

/-- Steps to be taken one after another, the last of them for ever. -/
structure Script (α : Type) where
  /-- the steps -/
  steps : List (Delayed α)
  /-- how many were taken -/
  taken : Nat := 0

namespace Script

variable {α : Type}

/-- The step of a given number, counted from zero. -/
def step? (s : Script α) (n : Nat) : Option (Delayed α) := s.steps[min n (s.steps.length - 1)]?

/-- The next step. -/
def next? (s : Script α) : Option (Delayed α) × Script α :=
  (s.step? s.taken, { s with taken := s.taken + 1 })

end Script

/-- What was asked of a scripted world since this was last looked at. -/
structure Inquiries where
  /-- addresses of the endpoints that each contract was read over -/
  reads : Table String (List String) := .empty
  /-- ids that quotes were asked for -/
  quotes : List (List String) := []
  /-- the greatest number of reads that ran at once -/
  most : Nat := 0

/-- A scripted world. -/
structure Rehearsal where
  /-- whether an endpoint answers, by its address -/
  probes : Table String (Script Bool) := .empty
  /-- round trips to each address -/
  trips : Table String Nat := .empty
  /-- rounds by the address of the contract -/
  rounds : Table String (Script (Except Fault Round)) := .empty
  /-- replies of the quote service -/
  quotes : Script (Except Fault (List Quote)) := ⟨[], 0⟩
  /-- reads that run now -/
  running : Nat := 0
  /-- what was asked -/
  inquiries : Inquiries := {}

namespace Rehearsal

/-- A round trip. An address without a script fails at once. -/
def roundTrip (_ : NetworkId) (url : String) (w : Rehearsal) : Delayed Bool × Rehearsal :=
  let w := { w with trips := w.trips.insert url ((w.trips.get? url).getD 0 + 1) }
  match w.probes.get? url with
  | none => (⟨0, false⟩, w)
  | some script =>
    let (step, script) := script.next?
    (step.getD ⟨0, false⟩, { w with probes := w.probes.insert url script })

/-- What the reads of a contract are filed under. -/
def readKey (t : Transport) (address : String) : String :=
  toString t.network.toNat ++ ":" ++ address

/-- A read. One of a contract without a script fails at once, and never counts as running beside
others. -/
def readRound (t : Transport) (address : String) (w : Rehearsal) :
    Delayed (Except Fault Round) × Rehearsal :=
  let key := readKey t address
  let reads := w.inquiries.reads.insert key ((w.inquiries.reads.get? key).getD [] ++ [t.url])
  let running := w.running + 1
  let w := { w with running := running, inquiries := { w.inquiries with reads := reads } }
  let unscripted : Delayed (Except Fault Round) :=
    ⟨0, .error (.remote ("no script for " ++ address))⟩
  match w.rounds.get? address with
  | none => (unscripted, w)
  | some script =>
    let (step, script) := script.next?
    (step.getD unscripted,
      { w with
        rounds := w.rounds.insert address script
        inquiries := { w.inquiries with most := max w.inquiries.most running } })

/-- A request for quotes. -/
def askQuotes (ids : List String) (w : Rehearsal) :
    Delayed (Except Fault (List Quote)) × Rehearsal :=
  let (step, quotes) := w.quotes.next?
  (step.getD ⟨0, .ok []⟩,
    { w with
      quotes := quotes
      inquiries := { w.inquiries with quotes := w.inquiries.quotes ++ [ids] } })

/-- Answers by the scripts, with or without a quote service. -/
def providers (hasService : Bool) : Providers Rehearsal where
  roundTrip := roundTrip
  readRound := readRound
  readDone w := { w with running := w.running - 1 }
  quotes := if hasService then some askQuotes else none

/-- Give an address a new script, and count its round trips anew. -/
def setProbe (w : Rehearsal) (url : String) (script : Script Bool) : Rehearsal :=
  { w with probes := w.probes.insert url script, trips := w.trips.erase url }

end Rehearsal

/-- An operation that follows a script: the number of the attempt is the number of the step. -/
def Operation.scripted {σ α : Type} (otherwise : Except Fault α)
    (script : Script (Except Fault α)) : Operation σ α where
  start n _ w := ((script.step? n).getD ⟨0, otherwise⟩, w)
  done w := w

end PriceRelay
