import PriceRelay.Feed
/-!
# Faults

Why an operation of the relay can fail. What a provider answers is kept as text, and a text that
carries one of a few markers asks for an immediate change of endpoint.

* `Fault` lists the causes, `ConfigFault` those of a configuration that cannot be used,
* `Fault.message` words each of them, `Wording` is what a parser adds,
* `Fault.ofRemote` sorts a provider's text by the markers.
-/

namespace PriceRelay

/-- What a parser says of a text that it cannot read. How it words that is left open: it may show
any part of the text. -/
abbrev Wording := String → String

/-- What is wrong with a configuration. -/
inductive ConfigFault
  /-- a tunable that the loops cannot run with -/
  | zero (name : String)
  /-- one network listed twice -/
  | repeatedNetwork (network : NetworkId)
  /-- a network without an endpoint -/
  | noEndpoints (network : NetworkId)
  /-- a feed without an address, named by its symbol -/
  | feedWithoutAddress (network : NetworkId) (symbol : Option String)
  /-- the quote service has no address -/
  | emptyQuoteEndpoint
  /-- a feed of the quote service without an id -/
  | quoteFeedWithoutId
  /-- a text that should be a list of extra endpoints -/
  | malformedExtraList (text : String)
  /-- a list of extra endpoints that cannot be read -/
  | unreadableExtraList (path reason : String)
deriving DecidableEq, Repr

/-- The wording of a fault in a configuration, given what is said of a text that is no list. -/
def ConfigFault.message (unread : Wording) : ConfigFault → String
  | zero name => name ++ " must be greater than zero"
  | repeatedNetwork n => "network " ++ toString n.toNat ++ " configured more than once"
  | noEndpoints n => "network " ++ toString n.toNat ++ " has no endpoints"
  | feedWithoutAddress n symbol =>
    "network " ++ toString n.toNat ++ " has a feed (" ++ symbol.getD "unnamed" ++
      ") without an address"
  | emptyQuoteEndpoint => "pyth.endpoint is empty"
  | quoteFeedWithoutId => "pyth feed without an id"
  | malformedExtraList text => "invalid extra RPC list: " ++ unread text
  | unreadableExtraList path reason =>
    "failed to read extra RPC list " ++ path ++ ": " ++ reason

/-- Why an operation failed. -/
inductive Fault
  /-- no price is held for a feed -/
  | notFound (feed : Feed)
  /-- no endpoint is selected for a network -/
  | noTransport (network : NetworkId)
  /-- a provider failed -/
  | remote (text : String)
  /-- a provider failed in a way that asks for another endpoint -/
  | failover (text : String)
  /-- the configuration cannot be used -/
  | config (cause : ConfigFault)
deriving DecidableEq, Repr

namespace Fault

/-- Texts that ask for another endpoint. -/
def markers : List String := ["-32097", "32097", "execution reverted", "revert"]

/-- Whether a provider's text asks for another endpoint. -/
def hasMarker (text : String) : Bool := markers.any fun m => Text.contains text m

/-- A provider's failure, sorted by its text. -/
def ofRemote (text : String) : Fault := if hasMarker text then failover text else remote text

/-- Whether the fault asks for another endpoint. -/
def isFailover : Fault → Bool
  | failover _ => true
  | _ => false

/-- Whether the fault is that nothing is held for a feed. -/
def isNotFound : Fault → Bool
  | notFound _ => true
  | _ => false

/-- The wording of a fault, given what is said of a text that is no list of extra endpoints. -/
def message (unread : Wording) : Fault → String
  | notFound f =>
    "no price data for feed " ++ f.identifier ++ " on network " ++ toString f.network.toNat ++
      " (source: " ++ f.source.name ++ ")"
  | noTransport n => "no transport available for network " ++ toString n.toNat
  | remote text => "upstream error: " ++ text
  | failover text => "upstream error: " ++ text
  | config cause => "invalid configuration: " ++ cause.message unread

end Fault

end PriceRelay
