import PriceRelay.Fetch.Batch
/-!
# Fetch cycles

A cycle fetches every tracked feed once: each aggregator by itself, all quotes in one batch. Feeds
that nobody can fetch are skipped. At the end it is told how many succeeded and failed.

* `CyclePlan.ofFeeds` sorts the tracked feeds,
* `CycleReport.ofAnswers` counts,
* `CycleReport.line` words the counts.
-/

namespace PriceRelay

/-- What a cycle sets out to do. -/
structure CyclePlan where
  /-- aggregators to read -/
  aggregators : List Feed := []
  /-- ids of the quotes to ask for -/
  ids : List String := []
  /-- how many feeds nobody can fetch -/
  skipped : Nat := 0
deriving DecidableEq, Repr

namespace CyclePlan

/-- Add a feed to a plan. -/
def add (hasService : Bool) (plan : CyclePlan) (f : Feed) : CyclePlan :=
  match f.source with
  | .chainlink => { plan with aggregators := plan.aggregators ++ [f] }
  | .pyth =>
    if hasService then { plan with ids := plan.ids ++ [f.identifier] }
    else { plan with skipped := plan.skipped + 1 }
  | .custom _ => { plan with skipped := plan.skipped + 1 }

/-- The plan for some feeds, in their order. -/
def ofFeeds (hasService : Bool) (feeds : List Feed) : CyclePlan := feeds.foldl (add hasService) {}

/-- The fetches of a plan. -/
def fetches (plan : CyclePlan) : List Fetch :=
  plan.aggregators.map fun f => { network := f.network, address := f.identifier }

/-- The batch of a plan. -/
def batch (hasService : Bool) (plan : CyclePlan) : Batch := .begin hasService plan.ids

end CyclePlan

/-- The counts of a cycle. -/
structure CycleReport where
  /-- feeds that were written -/
  succeeded : Nat
  /-- feeds that could not be fetched -/
  failed : Nat
  /-- feeds that nobody can fetch -/
  skipped : Nat
deriving DecidableEq, Repr

namespace CycleReport

/-- The counts of a plan whose fetches and batch gave these answers. Quotes that were asked for and
not written count as failed. -/
def ofAnswers (plan : CyclePlan) (fetches : List (Except Fault Record))
    (batch : Except Fault Nat) : CycleReport :=
  let read := (fetches.filter fun a => a.toOption.isSome).length
  let unread := (fetches.filter fun a => a.toOption.isNone).length
  match batch with
  | .ok stored => ⟨read + stored, unread + (plan.ids.length - stored), plan.skipped⟩
  | .error _ => ⟨read, unread + plan.ids.length, plan.skipped⟩

/-- How the line that tells of a cycle begins. -/
def opening : String := "Fetch cycle complete"

/-- The counts in words. -/
def line (r : CycleReport) : String :=
  opening ++ ": " ++ toString r.succeeded ++ " succeeded, " ++ toString r.failed ++
    " failed, " ++ toString r.skipped ++ " skipped"

end CycleReport

end PriceRelay
