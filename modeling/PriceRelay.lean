import PriceRelay.Binary64.Basic
import PriceRelay.Binary64.Text
import PriceRelay.Cache.Basic
import PriceRelay.Cache.Eviction
import PriceRelay.Cache.Overflow
import PriceRelay.Config.Basic
import PriceRelay.Config.Extra
import PriceRelay.Config.Format
import PriceRelay.Duration
import PriceRelay.Endpoint.Selection
import PriceRelay.Endpoint.Selector
import PriceRelay.Endpoint.Transport
import PriceRelay.Failover
import PriceRelay.Fault
import PriceRelay.Feed
import PriceRelay.Fetch.Batch
import PriceRelay.Fetch.Cycle
import PriceRelay.Fetch.Limiter
import PriceRelay.Fetch.Single
import PriceRelay.Json.Kept
import PriceRelay.Json.Reader
import PriceRelay.Json.Value
import PriceRelay.Json.Writer
import PriceRelay.Loop
import PriceRelay.Main
import PriceRelay.Network
import PriceRelay.Node
import PriceRelay.Provider.Aggregator
import PriceRelay.Provider.Http
import PriceRelay.Provider.Quotes
import PriceRelay.Provider.Rpc
import PriceRelay.Quote
import PriceRelay.Record
import PriceRelay.Relay.Loops
import PriceRelay.Relay.Online
import PriceRelay.Relay.Rounds
import PriceRelay.Relay.Script
import PriceRelay.Relay.State
import PriceRelay.Relay.Timeline
import PriceRelay.Setting.Basic
import PriceRelay.Setting.Dotenv
import PriceRelay.Setting.Layers
import PriceRelay.Setting.Load
import PriceRelay.Setting.Path
import PriceRelay.Size
import PriceRelay.Status
import PriceRelay.Table
import PriceRelay.Text.Blank
import PriceRelay.Text.Form
import PriceRelay.Text.Hex
import PriceRelay.Text.Numeral
import PriceRelay.Text.Utf8
import PriceRelay.Word
import PriceRelay.Yaml.Cursor
import PriceRelay.Yaml.Lexer
import PriceRelay.Yaml.Node
import PriceRelay.Yaml.Scalar
import PriceRelay.Yaml.Tag
import PriceRelay.Yaml.Token
import PriceRelay.Proofs.Cache.Filing
import PriceRelay.Proofs.Size
import PriceRelay.Proofs.Attempts
import PriceRelay.Proofs.Binary64
import PriceRelay.Proofs.Cache.Accounting
import PriceRelay.Proofs.Cache.Calls
import PriceRelay.Proofs.Cache.Counts
import PriceRelay.Proofs.Cache.Exact
import PriceRelay.Proofs.Cache.Ledger
import PriceRelay.Proofs.Cache.Orders
import PriceRelay.Proofs.Cache.Pass
import PriceRelay.Proofs.Cache.Recency
import PriceRelay.Proofs.Cache.Shortest
import PriceRelay.Proofs.Config.ChainOrder
import PriceRelay.Proofs.Config.Limits
import PriceRelay.Proofs.Config.Load
import PriceRelay.Proofs.Config.Merge
import PriceRelay.Proofs.Config.Override
import PriceRelay.Proofs.Endpoint.Selection
import PriceRelay.Proofs.Endpoint.Selector
import PriceRelay.Proofs.Endpoint.Switchboard
import PriceRelay.Proofs.Failover
import PriceRelay.Proofs.Fetch.Plan
import PriceRelay.Proofs.Json.Record
import PriceRelay.Proofs.Json.RoundTrip
import PriceRelay.Proofs.Provider.Aggregator
import PriceRelay.Proofs.Provider.Digits
import PriceRelay.Proofs.Provider.FeedForm
import PriceRelay.Proofs.Provider.Quotes
import PriceRelay.Proofs.Provider.Rendering
import PriceRelay.Proofs.Provider.Retries
import PriceRelay.Proofs.Provider.RoundForm
import PriceRelay.Proofs.Provider.Signals
import PriceRelay.Proofs.Relay.Call
import PriceRelay.Proofs.Relay.Choice
import PriceRelay.Proofs.Relay.Completion
import PriceRelay.Proofs.Relay.Cycle
import PriceRelay.Proofs.Relay.Deeds
import PriceRelay.Proofs.Relay.Requests
import PriceRelay.Proofs.Relay.Shutdown
import PriceRelay.Proofs.Relay.Workload
import PriceRelay.Proofs.Relay.Writes
import PriceRelay.Proofs.Setting.Variable
import PriceRelay.Proofs.Status
import PriceRelay.Proofs.Text.Hex
import PriceRelay.Proofs.Text.Infix
import PriceRelay.Proofs.Text.Numeral
import PriceRelay.Proofs.Text.Trim
import PriceRelay.Proofs.Weighing
import PriceRelay.Proofs.Word
import PriceRelay.Proofs.WordBytes
