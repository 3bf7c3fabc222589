import PriceRelay.Duration
import PriceRelay.Fault
/-!
# Configuration

What the relay is told before it starts: the networks with their endpoints and aggregators, the
quote service with its feeds, the tunables of the loops, and the cap of the cache.

* `Config` is a whole configuration,
* `Config.validate` refuses one that the loops cannot run with,
* `Config.toJson` writes every field of one.
-/

namespace PriceRelay

/-- An aggregator contract to read. -/
structure AggregatorConfig where
  /-- its symbol, if it has one -/
  symbol : Option String := none
  /-- its address -/
  address : String
deriving DecidableEq, Repr

/-- A network, the endpoints it can be reached at, and what to read on it. -/
structure NetworkConfig where
  /-- number of the network -/
  network : NetworkId
  /-- its name, if it is given one -/
  name : Option String := none
  /-- candidate endpoints; an extra list may add to them -/
  endpoints : List String := []
  /-- contracts to read -/
  feeds : List AggregatorConfig := []
deriving DecidableEq, Repr

/-- A feed of the quote service. -/
structure QuoteFeedConfig where
  /-- its id -/
  id : String
  /-- its symbol, if it has one -/
  symbol : Option String := none
deriving DecidableEq, Repr

/-- The quote service. -/
structure QuoteConfig where
  /-- its address -/
  endpoint : String := "https://hermes.pyth.network"
  /-- time that a request is given, in milliseconds -/
  timeoutMs : UInt64 := 5000
  /-- how many times a request may be sent again -/
  httpRetries : UInt32 := 3
  /-- feeds to ask for -/
  feeds : List QuoteFeedConfig := []
deriving DecidableEq, Repr

/-- Intervals, time limits and retries of the loops. -/
structure MonitoringConfig where
  /-- seconds from one round of probes to the next -/
  probeIntervalSecs : UInt64 := 30
  /-- seconds that a probe is given -/
  probeTimeoutSecs : UInt64 := 5
  /-- seconds from one fetch cycle to the next -/
  fetchIntervalSecs : UInt64 := 30
  /-- how many fetches may run at once -/
  maxConcurrentFetches : UInt64 := 10
  /-- how many times a failed call may be run again -/
  maxRetries : UInt32 := 1
  /-- milliseconds before it is run again -/
  retryDelayMs : UInt64 := 2000
  /-- seconds from one report to the next -/
  statusIntervalSecs : UInt64 := 15
deriving DecidableEq, Repr

namespace MonitoringConfig

/-- Distance of the rounds of probes. -/
def probeInterval (m : MonitoringConfig) : Duration := .ofSeconds m.probeIntervalSecs.toNat

/-- Time that a probe is given. -/
def probeTimeout (m : MonitoringConfig) : Duration := .ofSeconds m.probeTimeoutSecs.toNat

/-- Distance of the fetch cycles. -/
def fetchInterval (m : MonitoringConfig) : Duration := .ofSeconds m.fetchIntervalSecs.toNat

/-- Pause before a failed call is run again. -/
def retryDelay (m : MonitoringConfig) : Duration := .ofMillis m.retryDelayMs.toNat

/-- Distance of the reports. -/
def statusInterval (m : MonitoringConfig) : Duration := .ofSeconds m.statusIntervalSecs.toNat

end MonitoringConfig

/-- The cache. -/
structure CacheConfig where
  /-- its cap in bytes -/
  maxSizeBytes : UInt64 := 10 * 1024 * 1024
deriving DecidableEq, Repr

/-- A whole configuration. -/
structure Config where
  /-- the networks -/
  networks : List NetworkConfig := []
  /-- a file with more endpoints, if there is one -/
  extraPath : Option String := none
  /-- the quote service, if it is used -/
  quotes : Option QuoteConfig := none
  /-- tunables of the loops -/
  monitoring : MonitoringConfig := {}
  /-- the cache -/
  cache : CacheConfig := {}
deriving DecidableEq, Repr

namespace Config

/-- What is configured for a network. -/
def network? (c : Config) (n : NetworkId) : Option NetworkConfig :=
  c.networks.find? fun net => net.network = n

/-! ### Validation -/

/-- The tunables that must not be zero, in the order in which they are looked at. -/
def nonzero (c : Config) : List (String × UInt64) :=
  [("monitoring.probe_interval_secs", c.monitoring.probeIntervalSecs),
    ("monitoring.probe_timeout_secs", c.monitoring.probeTimeoutSecs),
    ("monitoring.fetch_interval_secs", c.monitoring.fetchIntervalSecs),
    ("monitoring.status_interval_secs", c.monitoring.statusIntervalSecs),
    ("monitoring.max_concurrent_fetches", c.monitoring.maxConcurrentFetches),
    ("cache.max_size_bytes", c.cache.maxSizeBytes)]

/-- The first tunable that is zero. -/
def zeroFault? (c : Config) : Option ConfigFault :=
  (c.nonzero.find? fun p => p.2 = 0).map fun p => .zero p.1

/-- What is wrong with a network, given the networks before it. -/
def networkFault? (seen : List NetworkId) (net : NetworkConfig) : Option ConfigFault :=
  if net.network ∈ seen then some (.repeatedNetwork net.network)
  else if net.endpoints.all Text.isBlankText then some (.noEndpoints net.network)
  else (net.feeds.find? fun f => Text.isBlankText f.address).map fun f =>
    .feedWithoutAddress net.network f.symbol

/-- The first fault among some networks. -/
def networksFault? (seen : List NetworkId) : List NetworkConfig → Option ConfigFault
  | [] => none
  | net :: nets => (networkFault? seen net).or (networksFault? (net.network :: seen) nets)

/-- What is wrong with the quote service. -/
def quotesFault? (q : QuoteConfig) : Option ConfigFault :=
  if Text.isBlankText q.endpoint then some .emptyQuoteEndpoint
  else if q.feeds.any fun f => Text.isBlankText f.id then some .quoteFeedWithoutId
  else none

/-- The first thing that is wrong with a configuration. -/
def fault? (c : Config) : Option ConfigFault :=
  (c.zeroFault?.or (networksFault? [] c.networks)).or (c.quotes.bind quotesFault?)

/-- Refuse a configuration that cannot be used. -/
def validate (c : Config) : Except Fault Unit :=
  match c.fault? with
  | none => .ok ()
  | some cause => .error (.config cause)

/-! ### JSON -/

/-- A text or nothing. -/
def optionalText (s : Option String) : Json := (s.map Json.str).getD .null

/-- A number without sign. -/
def number (n : Nat) : Json := .int n

/-- The JSON form of an aggregator. -/
def aggregatorJson (f : AggregatorConfig) : Json :=
  .obj [("symbol", optionalText f.symbol), ("address", .str f.address)]

/-- The JSON form of a network. -/
def networkJson (n : NetworkConfig) : Json :=
  .obj [("network_id", number n.network.toNat), ("name", optionalText n.name),
    ("endpoints", .array (n.endpoints.map .str)), ("feeds", .array (n.feeds.map aggregatorJson))]

/-- The JSON form of a feed of the quote service. -/
def quoteFeedJson (f : QuoteFeedConfig) : Json :=
  .obj [("id", .str f.id), ("symbol", optionalText f.symbol)]

/-- The JSON form of the quote service. -/
def quotesJson (q : QuoteConfig) : Json :=
  .obj [("endpoint", .str q.endpoint), ("timeout_ms", number q.timeoutMs.toNat),
    ("http_retries", number q.httpRetries.toNat), ("feeds", .array (q.feeds.map quoteFeedJson))]

/-- The JSON form of the tunables. -/
def monitoringJson (m : MonitoringConfig) : Json :=
  .obj [("probe_interval_secs", number m.probeIntervalSecs.toNat),
    ("probe_timeout_secs", number m.probeTimeoutSecs.toNat),
    ("fetch_interval_secs", number m.fetchIntervalSecs.toNat),
    ("max_concurrent_fetches", number m.maxConcurrentFetches.toNat),
    ("max_retries", number m.maxRetries.toNat),
    ("retry_delay_ms", number m.retryDelayMs.toNat),
    ("status_interval_secs", number m.statusIntervalSecs.toNat)]

/-- The JSON form of a configuration, every field of it. -/
def toJson (c : Config) : Json :=
  .obj [("networks", .array (c.networks.map networkJson)),
    ("extra_rpcs_path", optionalText c.extraPath),
    ("pyth", (c.quotes.map quotesJson).getD .null),
    ("monitoring", monitoringJson c.monitoring),
    ("cache", .obj [("max_size_bytes", number c.cache.maxSizeBytes.toNat)])]

end Config

end PriceRelay
