import PriceRelay.Json.Value
/-!
# Networks

A network is known by a number of 64 bits; a few are known by name too. Number zero is a network in
name only: prices that belong to no chain are kept under it.

* `KnownNetwork` lists the names in their order,
* `NetworkId.label` is how a network is written for people to read.
-/

namespace PriceRelay

/-- The number of a network. -/
abbrev NetworkId := UInt64

/-- Networks known by name. -/
inductive KnownNetwork
  | pyth | ethereum | arbitrum | polygon | bsc | optimism | fantom | avalanche
deriving DecidableEq, Repr

namespace KnownNetwork

/-- The known networks in their order. -/
def all : List KnownNetwork :=
  [pyth, ethereum, arbitrum, polygon, bsc, optimism, fantom, avalanche]

/-- The number of a known network. -/
def id : KnownNetwork → NetworkId
  | pyth => 0
  | ethereum => 1
  | arbitrum => 42161
  | polygon => 137
  | bsc => 56
  | optimism => 10
  | fantom => 250
  | avalanche => 43114

/-- The name of a known network, which is also its JSON form. -/
def name : KnownNetwork → String
  | pyth => "pyth"
  | ethereum => "ethereum"
  | arbitrum => "arbitrum"
  | polygon => "polygon"
  | bsc => "bsc"
  | optimism => "optimism"
  | fantom => "fantom"
  | avalanche => "avalanche"

/-- The known network of a number. -/
def ofId? (n : NetworkId) : Option KnownNetwork := all.find? fun k => k.id = n

/-- The known network of a name. -/
def ofName? (s : String) : Option KnownNetwork := all.find? fun k => k.name = s

/-- The known network of a JSON tree: its name, or an object of that one name and `null`. -/
def ofJson? (j : Json) : Option KnownNetwork :=
  match j with
  | .text (some s) => ofName? s
  | .object [(some s, .null)] => ofName? s
  | _ => none

end KnownNetwork

/-- The network under which prices of no chain are kept. -/
def NetworkId.offChain : NetworkId := 0

/-- A network as people read it: its name, or the word `network`, with its number. -/
def NetworkId.label (n : NetworkId) : String :=
  match KnownNetwork.ofId? n with
  | some k => k.name ++ "(" ++ toString n.toNat ++ ")"
  | none => "network(" ++ toString n.toNat ++ ")"

end PriceRelay
