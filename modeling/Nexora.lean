import Nexora.Std.Words
import Nexora.Std.Table
import Nexora.Std.History
import Nexora.Std.Fallible
import Nexora.Data.Failure
import Nexora.Data.Json
import Nexora.Catalog.Manifest
import Nexora.Catalog.Store
import Nexora.Catalog.Repository
import Nexora.Std.Ranking
import Nexora.Catalog.Offer
import Nexora.Catalog.Release
import Nexora.Tools.Contracts
import Nexora.Data.Dict
import Nexora.Integration.Manifest
import Nexora.Integration.Credentials
import Nexora.Workspace.Members
import Nexora.Tenant.Store
import Nexora.Catalog.Operations
import Nexora.Tenant.Integrations
import Nexora.Tenant.Agents
import Nexora.Tenant.System
import Nexora.Tenant.Frames
import Nexora.Tenant.Readiness
import Nexora.Tenant.Pause
import Nexora.Std.Locks
import Nexora.Spend.Budget
import Nexora.Spend.Ledger
import Nexora.Spend.Alerts
import Nexora.Std.Fencing
import Nexora.Run.Store
import Nexora.Run.Calls
import Nexora.Run.Requests
import Nexora.Run.System
import Nexora.Run.Effects
import Nexora.Run.Jobs
import Nexora.Run.Moves
import Nexora.Run.Claims
import Nexora.Run.Frames
import Nexora.Run.Fencing
import Nexora.Catalog.Rollouts
import Nexora.Catalog.Served
import Nexora.Catalog.Restoring
import Nexora.Run.Board
import Nexora.Run.Reach
import Nexora.Run.Successes
import Nexora.Run.Journal
import Nexora.Run.Cancellation
import Nexora.Run.Coupling
import Nexora.Run.Guards
import Nexora.Run.Retries
import Nexora.Run.Outbox
import Nexora.Run.Backoff
import Nexora.Run.Approvals
import Nexora.Tenant.Vault
import Nexora.Tenant.Writers
import Nexora.Tenant.Secrets
import Nexora.Tenant.Switch
import Nexora.Connector.Provision
import Nexora.Data.Identifier
import Nexora.Connector.Names
import Nexora.Connector.Accounts
import Nexora.Connector.Following
import Nexora.Connector.Runtime
import Nexora.Connector.Egress
import Nexora.Tenant.Sealed
import Nexora.Connector.Contracts
import Nexora.Connector.Fleet
import Nexora.Connector.Snapshots
import Nexora.Connector.Pinned
import Nexora.Connector.Limits
import Nexora.Catalog.Widening
import Nexora.Tenant.Moves
import Nexora.Tenant.Sweep
import Nexora.Tenant.Pins
import Nexora.Tenant.Rollback
import Nexora.Tenant.Released
import Nexora.Std.Sorting
import Nexora.Knowledge.Text
import Nexora.Knowledge.Store
import Nexora.Knowledge.Retrieval
import Nexora.Knowledge.Visibility
import Nexora.Knowledge.Pipeline
import Nexora.Knowledge.Queries
import Nexora.Std.Bulk
import Nexora.Knowledge.Ingestion
import Nexora.Knowledge.System
import Nexora.Knowledge.Indexing
import Nexora.Knowledge.Effects
import Nexora.Knowledge.Sources
import Nexora.Knowledge.Resurrection
import Nexora.Connector.Repeats
import Nexora.Std.Encoding
import Nexora.Executor.Provider
import Nexora.Executor.CacheKeys
import Nexora.Knowledge.Attempts
import Nexora.Std.Url
import Nexora.Connector.Quoting
import Nexora.Connector.Paths
import Nexora.Connector.Rebinding
import Nexora.Tenant.SingleUse
import Nexora.Tenant.Reconnecting
import Nexora.Spend.Delivery
import Nexora.Executor.Journal
import Nexora.Executor.Loop
import Nexora.Executor.System
import Nexora.Executor.Chain
import Nexora.Executor.Runs
import Nexora.Executor.Results
import Nexora.Executor.Incomplete
import Nexora.Std.Acyclic
import Nexora.Run.Lasting
import Nexora.Run.Tasks
import Nexora.Run.FollowUps
import Nexora.Run.Evidence
import Nexora.Judge.Store
import Nexora.Judge.Worker
import Nexora.Judge.System
import Nexora.Judge.Effects
import Nexora.Judge.Rows
import Nexora.Judge.Scoring
import Nexora.Judge.Once
import Nexora.Data.Members
import Nexora.Connector.Arguments
import Nexora.Connector.Placement
import Nexora.Connector.Storing
import Nexora.Connector.Caching
import Nexora.Std.Walks
import Nexora.Tools.Validation
import Nexora.Tools.Printing
import Nexora.Tools.Raising
import Nexora.Tools.Satisfying
import Nexora.Tools.Canonical
import Nexora.Data.Urllib
import Nexora.Browser.Target
import Nexora.Std.Addresses
import Nexora.Browser.Policy
import Nexora.Browser.Visiting
import Nexora.Data.EventStream
import Nexora.Mcp.Responses
import Nexora.Auth.OidcKeys
import Nexora.Auth.Rotation
import Nexora.Std.Traces
import Nexora.Executor.Configuration
import Nexora.Executor.Charging
import Nexora.Executor.Advances
import Nexora.Executor.Budget
import Nexora.Executor.Advertised
import Nexora.Std.Paging
import Nexora.Catalog.Numbers
import Nexora.Publishing.Transactions
import Nexora.Publishing.Ordering
import Nexora.Publishing.Listing
import Nexora.Publishing.Packages
import Nexora.Std.Reciprocals
import Nexora.Knowledge.Hybrid
import Nexora.Knowledge.Trimming
import Nexora.Knowledge.Chunking
import Nexora.Evaluation.Citations
import Nexora.Knowledge.Framing
import Nexora.Auth.RateLimit
import Nexora.Auth.Windows
import Nexora.Std.Actions
import Nexora.Staging.Drill
import Nexora.Staging.Restoring
import Nexora.Data.JsText
import Nexora.Console.Units
import Nexora.Messages.Parser
import Nexora.Messages.Grammar
import Nexora.Messages.Parsing
import Nexora.Messages.Printing
import Nexora.Messages.Rendering
import Nexora.Knowledge.Snapshots
import Nexora.Tenant.Envelope
import Nexora.Executor.Settled
import Nexora.Run.Ended
import Nexora.Knowledge.Stability
import Nexora.Knowledge.Alignment
