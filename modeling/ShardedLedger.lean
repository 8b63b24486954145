import ShardedLedger.Http.Message
import ShardedLedger.Json.Basic
import ShardedLedger.Json.Error
import ShardedLedger.Json.Form
import ShardedLedger.Json.Parser
import ShardedLedger.Json.Printer
import ShardedLedger.Json.Scan
import ShardedLedger.Ledger.Account
import ShardedLedger.Ledger.Basic
import ShardedLedger.Ledger.Error
import ShardedLedger.Ledger.Key
import ShardedLedger.Ledger.Operations
import ShardedLedger.Ledger.Pool
import ShardedLedger.Main
import ShardedLedger.Number.Binary64
import ShardedLedger.Number.Shortest
import ShardedLedger.Persistence.Load
import ShardedLedger.Persistence.Plan
import ShardedLedger.Persistence.Result
import ShardedLedger.Persistence.Save
import ShardedLedger.Relay.Basic
import ShardedLedger.Relay.Cluster
import ShardedLedger.Relay.ConnectionPool
import ShardedLedger.Relay.Merge
import ShardedLedger.Relay.Request
import ShardedLedger.Relay.ShardTable
import ShardedLedger.Routing.Paths
import ShardedLedger.Routing.Table
import ShardedLedger.Service.Basic
import ShardedLedger.Service.Endpoint
import ShardedLedger.Service.Http
import ShardedLedger.Service.SaveLoop
import ShardedLedger.Service.Schedule
import ShardedLedger.Service.Timing
import ShardedLedger.Settings.Files
import ShardedLedger.Settings.Flags
import ShardedLedger.Settings.Numeral
import ShardedLedger.Settings.Relay
import ShardedLedger.Settings.Service
import ShardedLedger.Settings.SocketAddress
import ShardedLedger.Settings.StoreAddress
import ShardedLedger.Settings.Url
import ShardedLedger.SortedMap
import ShardedLedger.Store.Backend
import ShardedLedger.Store.Basic
import ShardedLedger.Text.Quoted
import ShardedLedger.Text.Split
import ShardedLedger.Text.Utf8
import ShardedLedger.Proofs.Persistence.Fleet
import ShardedLedger.Proofs.Persistence.Following
import ShardedLedger.Proofs.Persistence.Overwriting
import ShardedLedger.Proofs.Relay.Transparency
import ShardedLedger.Proofs.Ledger.Effect
import ShardedLedger.Proofs.Ledger.Tree
import ShardedLedger.Proofs.Relay.Ownership
import ShardedLedger.Proofs.Persistence.Saving
import ShardedLedger.Proofs.Persistence.History
import ShardedLedger.Proofs.Relay.Lending
import ShardedLedger.Proofs.Persistence.Archive
import ShardedLedger.Proofs.Persistence.Closing
import ShardedLedger.Proofs.Persistence.Overlooking
import ShardedLedger.Proofs.Service.Atomicity
import ShardedLedger.Proofs.Json.Form
import ShardedLedger.Proofs.Ledger.Codec
import ShardedLedger.Proofs.Persistence.Tenancy
import ShardedLedger.Proofs.Persistence.Isolation
import ShardedLedger.Proofs.Persistence.Flight
import ShardedLedger.Proofs.Persistence.SingleFlight
import ShardedLedger.Proofs.Ledger.Framing
import ShardedLedger.Proofs.Ledger.PoolWrites
import ShardedLedger.Proofs.Ledger.Refusal
import ShardedLedger.Proofs.Ledger.Creation
import ShardedLedger.Proofs.Ledger.Sums
import ShardedLedger.Proofs.Persistence.Resaving
import ShardedLedger.Proofs.Persistence.Loading
import ShardedLedger.Proofs.Ledger.Commutation
import ShardedLedger.Proofs.Service.ReadBack
import ShardedLedger.Proofs.Relay.Agreement
import ShardedLedger.Proofs.Ledger.Zeros
import ShardedLedger.Proofs.Persistence.Withholding
import ShardedLedger.Proofs.Ledger.Completion
import ShardedLedger.Proofs.Routing.Paths
import ShardedLedger.Proofs.Persistence.Listing
import ShardedLedger.Proofs.Settings.CommandLine
import ShardedLedger.Proofs.Relay.Hash
import ShardedLedger.Proofs.Ledger.Ancestry
