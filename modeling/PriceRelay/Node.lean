import PriceRelay.Relay.Online
import PriceRelay.Setting.Load
/-!
# The node

The node is the relay as a program: it loads its configuration, chooses endpoints, tracks what is
configured, runs the loops until it is told to stop, and says what it is doing in notices.

* `Notice` is something the node says,
* `Relay.ofConfig` is the relay of a configuration,
* `Node.start` brings the node up, `Node.stop` brings it down,
* `Node.rehearse` does both, with one fetch cycle in between.
-/

namespace PriceRelay

/-! ### Notices -/

/-- How much a notice matters. -/
inductive Notice.Level
  /-- all is well -/
  | info
  /-- something is amiss -/
  | warn
deriving DecidableEq, Repr

/-- Something the node says. -/
structure Notice where
  /-- how much it matters -/
  level : Notice.Level
  /-- what it says -/
  text : String
deriving DecidableEq, Repr

namespace Notice

/-- A notice that all is well. -/
def info (text : String) : Notice := ⟨.info, text⟩

/-- A notice that something is amiss. -/
def warn (text : String) : Notice := ⟨.warn, text⟩

/-- A notice in a line of text. -/
def line (n : Notice) : String :=
  (match n.level with
    | .info => "INFO "
    | .warn => "WARN ") ++ n.text

end Notice

/-! ### The relay of a configuration -/

namespace Config

/-- The tunables of a configuration. -/
def tunables (c : Config) : Tunables where
  probeTimeout := c.monitoring.probeTimeout
  probeInterval := c.monitoring.probeInterval
  failover := ⟨c.monitoring.maxRetries, c.monitoring.retryDelay⟩
  fetchInterval := c.monitoring.fetchInterval
  maxConcurrent := c.monitoring.maxConcurrentFetches.toNat
  statusInterval := c.monitoring.statusInterval

/-- The configured aggregators, each with its symbol. -/
def aggregators (c : Config) : List (Feed × Option String) :=
  c.networks.flatMap fun n => n.feeds.map fun f => (⟨n.network, .chainlink, f.address⟩, f.symbol)

/-- The configured feeds of the quote service, each with its symbol. -/
def quoteFeeds (c : Config) : List QuoteFeedConfig := (c.quotes.map QuoteConfig.feeds).getD []

/-- Everything that is to be tracked, each with its symbol. -/
def feeds (c : Config) : List (Feed × Option String) :=
  c.aggregators ++ c.quoteFeeds.map fun f => (⟨.offChain, .pyth, f.id⟩, f.symbol)

/-- The last symbol that is given for a key. -/
def symbolOf {κ : Type} [DecidableEq κ] (pairs : List (κ × Option String)) (key : κ) :
    Option String :=
  (pairs.reverse.filter fun p => p.1 = key).findSome? Prod.snd

end Config

/-- The relay of a configuration. -/
def Relay.ofConfig {σ : Type} (web : Web σ) (servers : σ) (c : Config) : Relay (Online σ) where
  tunables := c.tunables
  providers := Online.providers web (c.quotes.map QuoteService.ofConfig)
  outside := { servers }
  quoteSymbols := Config.symbolOf (c.quoteFeeds.map fun f => (f.id, f.symbol))
  symbols := Config.symbolOf c.feeds
  reportsEndpoints := true
  selector := .ofLists (c.networks.map fun n => (n.network, n.endpoints))
  cache := (c.feeds.map Prod.fst).foldl PriceCache.addFeed (.ofCap c.cache.maxSizeBytes)
  limiter := .ofCount c.monitoring.maxConcurrentFetches.toNat

/-! ### Running -/

namespace Node

variable {σ : Type}

/-- What the node says first. -/
def greeting : Notice := .info "Starting oracle relay v0.1.0"

/-- What it says of an extra list it has merged in. -/
def extraNotices (l : Loaded) : List Notice :=
  l.added.toList.map fun (n, list) =>
    .info ("Added " ++ toString n ++ " candidate endpoints from " ++ list)

/-- What it says of the configuration it has loaded. -/
def loadedNotice (path : String) (c : Config) : Notice :=
  .info ("Loaded config from " ++ path ++ ": " ++ toString c.networks.length ++ " networks, " ++
    toString c.quoteFeeds.length ++ " off-chain feeds")

/-- What it says of networks without an endpoint. -/
def endpointNotices (s : Selector) : List Notice :=
  (s.networks.filter fun n => (s.endpoint? n).isNone).map fun n =>
    .warn ("No RPC endpoint selected yet for " ++ n.label)

/-- What it says of the feeds it tracks. -/
def feedNotices (c : Config) : List Notice :=
  (c.networks.map fun n =>
    .info ("Tracking " ++ toString n.feeds.length ++ " feeds on " ++ n.network.label)) ++
  c.quotes.toList.map fun q => .info ("Off-chain prices from " ++ q.endpoint)

/-- What it says once it runs. -/
def readyNotices : List Notice :=
  [.info "Background services started", .info "Press Ctrl+C to shutdown"]

/-- Why the node is to stop. -/
inductive Stop
  /-- the user asks for it -/
  | interrupt
  /-- the system asks for it -/
  | terminate
deriving DecidableEq, Repr

/-- What the node says when it is to stop. -/
def stopNotices (why : Stop) : List Notice :=
  [.info (match why with
      | .interrupt => "Received Ctrl+C"
      | .terminate => "Received termination signal"),
    .info "Received shutdown signal, initiating graceful shutdown..."]

/-- What it says last. -/
def farewell : Notice := .info "Shutdown complete"

/-- The loops of a node. -/
def loops (s : Selector) : List LoopRun.Kind :=
  s.networks.map .probing ++ [.fetching, .reporting]

/-- Bring the node up: choose endpoints, then start the loops. -/
def start (web : Web σ) (servers : σ) (c : Config) : Timeline (Online σ) × List Notice :=
  let (rounds, relay) := ProbeRound.beginAll (.ofConfig web servers c)
    (Relay.ofConfig web servers c).selector.networks
  let (_, line) := Timeline.run .probeRounds rounds { relay }
  (line.start (loops line.relay.selector),
    endpointNotices line.relay.selector ++ feedNotices c ++ readyNotices)

/-- The line that tells of the first fetch cycle, once there is one. -/
def firstCycle? (t : Timeline (Online σ)) : Option String :=
  t.relay.log.reverse.find? fun l => Text.startsWith l CycleReport.opening

/-- Bring the node down: whatever is under way is finished first. -/
def stop (why : Stop) (t : Timeline (Online σ)) : Timeline (Online σ) × List Notice :=
  ((t.stop.run .join false).2, stopNotices why ++ [farewell])

/-- A run of the node. -/
structure Run (σ : Type) where
  /-- what the node has said -/
  notices : List Notice
  /-- the line that tells of its first fetch cycle -/
  cycle : Option String := none
  /-- the servers afterwards; absent if the node has not come up -/
  servers : Option σ := none
  /-- why the node has not come up -/
  fault : Option LoadFault := none

/-- The status a run ends with. -/
def Run.exitCode (r : Run σ) : UInt32 := if r.fault.isSome then 1 else 0

/-- Run the node until its first fetch cycle is complete. -/
def rehearse (web : Web σ) (servers : σ) (files : Files) (environment : List (String × String))
    (why : Stop) : Run σ :=
  let path := Config.path environment
  let loaded := Config.load files path environment
  let first := greeting :: extraNotices loaded
  match loaded.outcome with
  | .error e => { notices := first, fault := some e }
  | .ok c =>
    let (line, up) := start web servers c
    let line := line.runUntil fun t => (firstCycle? t).isSome
    let (last, down) := stop why line
    { notices := first ++ loadedNotice path c :: up ++ down
      cycle := firstCycle? line
      servers := some last.relay.outside.servers }

end Node

end PriceRelay
