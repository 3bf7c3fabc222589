import PriceRelay.Record
/-!
# Rounds and quotes

What the providers answer: an aggregator contract a round, the quote service a list of quotes. Each
becomes a record once it is known when it was read.

* `Round.price` makes the record of a round,
* `Quote.price` makes the record of a quote.
-/

namespace PriceRelay

/-- The latest round of an aggregator contract. -/
structure Round where
  /-- number of the round -/
  roundId : Word
  /-- the answer, read with a sign -/
  answer : Word
  /-- when the round began -/
  startedAt : Word
  /-- when the round was last changed -/
  updatedAt : Word
  /-- the round the answer stems from -/
  answeredInRound : Word
  /-- digits after the point of the answer -/
  decimals : UInt8
deriving DecidableEq, Repr

/-- Digits after the point that are assumed when a contract does not tell. -/
def Round.assumedDecimals : UInt8 := 8

/-- The record of a round. -/
def Round.price (r : Round) (network : NetworkId) (address : String) (observed : Moment) :
    AggregatorPrice where
  roundId := r.roundId
  answer := r.answer
  startedAt := r.startedAt
  updatedAt := r.updatedAt
  answeredInRound := r.answeredInRound
  exponent := Int32.ofInt (-(r.decimals.toNat : Int))
  network := network
  address := address
  observed := observed

/-- A quote of the quote service. -/
structure Quote where
  /-- the id it was asked for by -/
  identifier : String
  /-- the price, read with a sign -/
  magnitude : Word
  /-- power of ten of the price -/
  scale : Int32
  /-- half the width of the interval around the price -/
  confidence : Word
  /-- when it was published -/
  publishTime : Int64
  /-- the slot it was published in -/
  slot : Int64
  /-- the moving average, read with a sign -/
  ema : Option Word
  /-- the confidence of the moving average -/
  emaConfidence : Option Word
deriving DecidableEq, Repr

/-- The record of a quote, which belongs to no chain. -/
def Quote.price (q : Quote) (symbol : Option String) (observed : Moment) : QuotedPrice where
  id := q.identifier
  symbol := symbol
  price := q.magnitude
  confidence := q.confidence
  exponent := q.scale
  publishTime := q.publishTime
  slot := q.slot
  network := NetworkId.offChain
  ema := q.ema
  emaConfidence := q.emaConfidence
  observed := observed

end PriceRelay
