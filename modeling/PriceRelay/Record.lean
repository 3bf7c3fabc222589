import PriceRelay.Feed
import PriceRelay.Word
/-!
# Price records

What is kept of a price. Records of the two built-in sources have their own shape; an embedding
program may add kinds of its own, of which only the common part is known here.

* `Record` is a record of any kind, and the functions on it are the common part,
* `Moment` is when a price was seen,
* `Record.Kind` tells the shapes apart.
-/

namespace PriceRelay

/-- A moment: one that was told as seconds of the epoch, or one read off the running clock, which
counts from the start. -/
inductive Moment
  /-- seconds of the epoch -/
  | epoch (seconds : Int)
  /-- nanoseconds on the running clock -/
  | running (nanoseconds : Nat)
deriving DecidableEq, Repr

/-- The time of day of a moment of the epoch; the running clock has no day. -/
def Moment.timeOfDay : Moment → String
  | .epoch s =>
    let t := (s % 86400).toNat
    ":".intercalate (([t / 3600, t / 60 % 60, t % 60]).map (Text.Numeral.padded 2))
  | .running _ => "<now>"

/-- The price of an aggregator contract. -/
structure AggregatorPrice where
  /-- number of the round -/
  roundId : Word
  /-- the answer of the round, read with a sign -/
  answer : Word
  /-- when the round began -/
  startedAt : Word
  /-- when the round was last changed -/
  updatedAt : Word
  /-- the round the answer stems from -/
  answeredInRound : Word
  /-- power of ten of the answer -/
  exponent : Int32
  /-- network of the contract -/
  network : NetworkId
  /-- address of the contract -/
  address : String
  /-- when it was read -/
  observed : Moment
deriving DecidableEq, Repr

/-- The price of a quote. -/
structure QuotedPrice where
  /-- id of the feed -/
  id : String
  /-- symbol of the feed -/
  symbol : Option String
  /-- the price, read with a sign -/
  price : Word
  /-- half the width of the interval around the price -/
  confidence : Word
  /-- power of ten of the price -/
  exponent : Int32
  /-- when it was published -/
  publishTime : Int64
  /-- the slot it was published in -/
  slot : Int64
  /-- the network it is kept under -/
  network : NetworkId
  /-- the moving average, read with a sign -/
  ema : Option Word
  /-- the confidence of the moving average -/
  emaConfidence : Option Word
  /-- when it was read -/
  observed : Moment
deriving DecidableEq, Repr

/-- The common part of a record of an embedding program. -/
structure CustomPrice where
  /-- what the embedding program calls this kind of record -/
  kind : String
  /-- where it comes from -/
  source : Source
  /-- the network it belongs to -/
  network : NetworkId
  /-- what the source calls it -/
  identifier : String
  /-- the price, read with a sign -/
  magnitude : Word
  /-- power of ten of the price -/
  scale : Int32
  /-- when it was read -/
  observed : Moment
  /-- its size, if it tells -/
  ownSize : Option UInt64
deriving DecidableEq, Repr

/-- A record of any kind. -/
inductive Record
  /-- of an aggregator contract -/
  | aggregator (p : AggregatorPrice)
  /-- of the quote service -/
  | quoted (p : QuotedPrice)
  /-- of an embedding program -/
  | custom (p : CustomPrice)
deriving DecidableEq, Repr

namespace Record

/-- The shape of a record. -/
inductive Kind
  /-- of an aggregator contract -/
  | aggregator
  /-- of the quote service -/
  | quoted
  /-- of an embedding program -/
  | custom (name : String)
deriving DecidableEq, Repr

/-- The shape of a record. -/
def kind : Record → Kind
  | aggregator _ => .aggregator
  | quoted _ => .quoted
  | custom p => .custom p.kind

/-- Where the price comes from. -/
def source : Record → Source
  | aggregator _ => .chainlink
  | quoted _ => .pyth
  | custom p => p.source

/-- The network the price belongs to. -/
def network : Record → NetworkId
  | aggregator p => p.network
  | quoted p => p.network
  | custom p => p.network

/-- What the source calls the price. -/
def identifier : Record → String
  | aggregator p => p.address
  | quoted p => p.id
  | custom p => p.identifier

/-- When the price was read. -/
def observed : Record → Moment
  | aggregator p => p.observed
  | quoted p => p.observed
  | custom p => p.observed

/-- The price without its power of ten, read with a sign. -/
def magnitude : Record → Word
  | aggregator p => p.answer
  | quoted p => p.price
  | custom p => p.magnitude

/-- The power of ten of the price. -/
def scale : Record → Int32
  | aggregator p => p.exponent
  | quoted p => p.exponent
  | custom p => p.scale

/-- The size a record tells of itself. -/
def ownSize : Record → Option UInt64
  | custom p => p.ownSize
  | _ => none

end Record

end PriceRelay
