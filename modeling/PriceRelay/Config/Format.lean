import PriceRelay.Config.Basic
import PriceRelay.Json.Reader
/-!
# Reading a configuration

A configuration is read from a tree. Trees of different formats differ in what they take for a
number or a text; what fields there are, and which may be left out, is the same for all.

* `Format` tells how the trees of a format are read,
* `Format.config` reads a configuration,
* `Json.format` is the strict format, where nothing is converted.
-/

namespace PriceRelay

/-- How the trees of a format are read. -/
structure Format (ν : Type) where
  /-- whether a tree stands for nothing -/
  isNull : ν → Bool
  /-- the number of at most a bound that a tree stands for -/
  natural : Nat → ν → Option Nat
  /-- the text a tree stands for -/
  text : ν → Option String
  /-- the items of a list -/
  items : ν → Option (List ν)
  /-- what a record gives for each of some fields, in the order of the fields -/
  fields : List String → ν → Option (List (Option ν))

namespace Format

variable {ν α : Type} (f : Format ν)

/-! ### Fields that may be missing -/

/-- A field that must be there. -/
def required (read : ν → Option α) (v : Option ν) : Option α := v.bind read

/-- A field with a value of its own where it is missing. -/
def orElse (default : α) (read : ν → Option α) (v : Option ν) : Option α :=
  match v with
  | none => some default
  | some v => read v

/-- A field that may be missing or stand for nothing. -/
def optional (read : ν → Option α) (v : Option ν) : Option (Option α) :=
  match v with
  | none => some none
  | some v => if f.isNull v then some none else (read v).map some

/-- A list, each item of which can be read. -/
def listOf (read : ν → Option α) (v : ν) : Option (List α) :=
  (f.items v).bind fun vs => vs.mapM read

/-- A number of 64 bits without sign. -/
def word64 (v : ν) : Option UInt64 := (f.natural (UInt64.size - 1) v).map UInt64.ofNat

/-- A number of 32 bits without sign. -/
def word32 (v : ν) : Option UInt32 := (f.natural (UInt32.size - 1) v).map UInt32.ofNat

/-! ### Records -/

/-- An aggregator. -/
def aggregator (v : ν) : Option AggregatorConfig :=
  (f.fields ["symbol", "address"] v).bind fun vs =>
    match vs with
    | [symbol, address] => do
      let symbol ← f.optional f.text symbol
      let address ← required f.text address
      some { symbol, address }
    | _ => none

/-- A network. -/
def network (v : ν) : Option NetworkConfig :=
  (f.fields ["network_id", "name", "endpoints", "feeds"] v).bind fun vs =>
    match vs with
    | [network, name, endpoints, feeds] => do
      let network ← required f.word64 network
      let name ← f.optional f.text name
      let endpoints ← orElse [] (f.listOf f.text) endpoints
      let feeds ← orElse [] (f.listOf f.aggregator) feeds
      some { network, name, endpoints, feeds }
    | _ => none

/-- A feed of the quote service. -/
def quoteFeed (v : ν) : Option QuoteFeedConfig :=
  (f.fields ["id", "symbol"] v).bind fun vs =>
    match vs with
    | [id, symbol] => do
      let id ← required f.text id
      let symbol ← f.optional f.text symbol
      some { id, symbol }
    | _ => none

/-- The quote service. -/
def quotes (v : ν) : Option QuoteConfig :=
  let default : QuoteConfig := {}
  (f.fields ["endpoint", "timeout_ms", "http_retries", "feeds"] v).bind fun vs =>
    match vs with
    | [endpoint, timeoutMs, httpRetries, feeds] => do
      let endpoint ← orElse default.endpoint f.text endpoint
      let timeoutMs ← orElse default.timeoutMs f.word64 timeoutMs
      let httpRetries ← orElse default.httpRetries f.word32 httpRetries
      let feeds ← orElse [] (f.listOf f.quoteFeed) feeds
      some { endpoint, timeoutMs, httpRetries, feeds }
    | _ => none

/-- The tunables. -/
def monitoring (v : ν) : Option MonitoringConfig :=
  let default : MonitoringConfig := {}
  (f.fields ["probe_interval_secs", "probe_timeout_secs", "fetch_interval_secs",
    "max_concurrent_fetches", "max_retries", "retry_delay_ms", "status_interval_secs"] v).bind
    fun vs => match vs with
    | [probeInterval, probeTimeout, fetchInterval, maxConcurrent, maxRetries, retryDelay,
        statusInterval] => do
      let probeIntervalSecs ← orElse default.probeIntervalSecs f.word64 probeInterval
      let probeTimeoutSecs ← orElse default.probeTimeoutSecs f.word64 probeTimeout
      let fetchIntervalSecs ← orElse default.fetchIntervalSecs f.word64 fetchInterval
      let maxConcurrentFetches ← orElse default.maxConcurrentFetches f.word64 maxConcurrent
      let maxRetries ← orElse default.maxRetries f.word32 maxRetries
      let retryDelayMs ← orElse default.retryDelayMs f.word64 retryDelay
      let statusIntervalSecs ← orElse default.statusIntervalSecs f.word64 statusInterval
      some { probeIntervalSecs, probeTimeoutSecs, fetchIntervalSecs, maxConcurrentFetches,
             maxRetries, retryDelayMs, statusIntervalSecs }
    | _ => none

/-- The cache. -/
def cache (v : ν) : Option CacheConfig :=
  let default : CacheConfig := {}
  (f.fields ["max_size_bytes"] v).bind fun vs =>
    match vs with
    | [maxSizeBytes] => do
      let maxSizeBytes ← orElse default.maxSizeBytes f.word64 maxSizeBytes
      some { maxSizeBytes }
    | _ => none

/-- A whole configuration. -/
def config (v : ν) : Option Config :=
  (f.fields ["networks", "extra_rpcs_path", "pyth", "monitoring", "cache"] v).bind fun vs =>
    match vs with
    | [networks, extraPath, quotes, monitoring, cache] => do
      let networks ← orElse [] (f.listOf f.network) networks
      let extraPath ← f.optional f.text extraPath
      let quotes ← f.optional f.quotes quotes
      let monitoring ← orElse {} f.monitoring monitoring
      let cache ← orElse {} f.cache cache
      some { networks, extraPath, quotes, monitoring, cache }
    | _ => none

end Format

/-- JSON trees, where nothing is converted. -/
def Json.format : Format Json where
  isNull := Json.isNull
  natural := Json.natural?
  text := Json.text?
  items := Json.items?
  fields := Json.fields

/-- The configuration that a JSON text stands for. -/
def Config.ofJson? (text : String) : Option Config := (Json.parse? text).bind Json.format.config

end PriceRelay
