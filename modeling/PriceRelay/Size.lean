import PriceRelay.Record
/-!
# Sizes of records

A record's size is what the first of these says: the record itself, a function registered for its
kind, the formula of a built-in kind, a constant. Which of the last three applies to a kind is
looked up once and remembered until a function is registered for the kind.

* `SizeRegistry.register` registers a function,
* `SizeRegistry.weigh` is the size of a record,
* `SizeRegistry.peek` and `SizeRegistry.settle` are the two halves of a look-up, which other
  registrations may come between.
-/

namespace PriceRelay

/-- A size function for the records of one kind. -/
abbrev SizeFn := Record → UInt64

/-- The size of a record that nothing is known about. -/
def fallbackSize : UInt64 := 100

/-- The size of an aggregator's price: five words, the exponent, network, moment and address. -/
def AggregatorPrice.size (p : AggregatorPrice) : UInt64 :=
  5 * 32 + 15 + 8 + 8 + Text.byteLength p.address + 8

/-- The size of a quoted price. -/
def QuotedPrice.size (p : QuotedPrice) : UInt64 :=
  Text.byteLength p.id + 8 + (p.symbol.map Text.byteLength).getD 0 + 8 + 4 * 32 + 8 + 8 + 8 + 15 + 8

/-- How the records of a kind are measured. -/
inductive Resolution
  /-- by a registered function -/
  | registered (f : SizeFn)
  /-- by the formula of aggregator prices -/
  | aggregator
  /-- by the formula of quoted prices -/
  | quoted
  /-- by the constant -/
  | fallback

/-- The size of a record under a resolution. -/
def Resolution.apply : Resolution → SizeFn
  | registered f, r => f r
  | aggregator, .aggregator p => p.size
  | quoted, .quoted p => p.size
  | _, _ => fallbackSize

/-- Registered functions and remembered resolutions, by kind. -/
structure SizeRegistry where
  /-- registered functions, each kind once -/
  registered : List (Record.Kind × SizeFn) := []
  /-- remembered resolutions, each kind once -/
  resolved : List (Record.Kind × Resolution) := []

namespace SizeRegistry

/-- What a list of pairs holds for a kind. -/
def lookup {α : Type} (k : Record.Kind) : List (Record.Kind × α) → Option α
  | [] => none
  | (k', a) :: rest => if k' = k then some a else lookup k rest

/-- A list of pairs without a kind. -/
def without {α : Type} (k : Record.Kind) (l : List (Record.Kind × α)) : List (Record.Kind × α) :=
  l.filter fun p => p.1 ≠ k

/-- Register a function for a kind, over an earlier one; what was remembered of the kind is
forgotten. -/
def register (s : SizeRegistry) (k : Record.Kind) (f : SizeFn) : SizeRegistry where
  registered := (k, f) :: without k s.registered
  resolved := without k s.resolved

/-- Whether a function is registered for a kind. -/
def isRegistered (s : SizeRegistry) (k : Record.Kind) : Bool := (lookup k s.registered).isSome

/-- What applies to a kind by what is registered now. -/
def derive (s : SizeRegistry) (k : Record.Kind) : Resolution :=
  match lookup k s.registered with
  | some f => .registered f
  | none =>
    match k with
    | .aggregator => .aggregator
    | .quoted => .quoted
    | .custom _ => .fallback

/-! ### Look-ups -/

/-- First half of a look-up: what is remembered of a kind. -/
def peek (s : SizeRegistry) (k : Record.Kind) : Option Resolution := lookup k s.resolved

/-- Second half of a look-up that found nothing: look again, else derive and remember. -/
def settle (s : SizeRegistry) (k : Record.Kind) : Resolution × SizeRegistry :=
  match s.peek k with
  | some r => (r, s)
  | none => (s.derive k, { s with resolved := (k, s.derive k) :: s.resolved })

/-- A whole look-up with nothing between its halves. -/
def resolve (s : SizeRegistry) (k : Record.Kind) : Resolution × SizeRegistry :=
  match s.peek k with
  | some r => (r, s)
  | none => s.settle k

/-- The size of a record. -/
def weigh (s : SizeRegistry) (r : Record) : UInt64 :=
  match r.ownSize with
  | some size => size
  | none => (s.resolve r.kind).1.apply r

/-- The registry after a record was weighed. -/
def remember (s : SizeRegistry) (r : Record) : SizeRegistry :=
  match r.ownSize with
  | some _ => s
  | none => (s.resolve r.kind).2

/-- The registry after some records were weighed. -/
def rememberAll (s : SizeRegistry) (rs : List Record) : SizeRegistry := rs.foldl remember s

/-- A line that tells how many functions and resolutions there are. -/
def summary (s : SizeRegistry) : String :=
  "SizeEstimatorRegistry \x7b registered: " ++ toString s.registered.length ++ ", resolved: " ++
    toString s.resolved.length ++ " \x7d"

end SizeRegistry

end PriceRelay
