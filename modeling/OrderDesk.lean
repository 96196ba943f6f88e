import OrderDesk.Account
import OrderDesk.Account.Supervisor
import OrderDesk.Act
import OrderDesk.Binary64
import OrderDesk.Client.Basic
import OrderDesk.Client.History
import OrderDesk.Client.ListenKey
import OrderDesk.Client.Orders
import OrderDesk.Decimal.Basic
import OrderDesk.Decimal.Json
import OrderDesk.Decimal.Text
import OrderDesk.Desk.Basic
import OrderDesk.Desk.Feed
import OrderDesk.Desk.Orders
import OrderDesk.Desk.Session
import OrderDesk.Desk.State
import OrderDesk.Desk.Workers
import OrderDesk.Digest.Hmac
import OrderDesk.Digest.Sha256
import OrderDesk.Event
import OrderDesk.Fault
import OrderDesk.Fault.Status
import OrderDesk.Fills
import OrderDesk.Instant.Basic
import OrderDesk.Instant.Calendar
import OrderDesk.Instant.Text
import OrderDesk.Instrument
import OrderDesk.Json.Basic
import OrderDesk.Json.Decode
import OrderDesk.Json.Printer
import OrderDesk.Json.Reader
import OrderDesk.Listing
import OrderDesk.Market.Surface
import OrderDesk.Market.Venue
import OrderDesk.MarketData
import OrderDesk.Order
import OrderDesk.Order.Kind
import OrderDesk.Order.Request
import OrderDesk.Pool.Basic
import OrderDesk.Pool.Connection
import OrderDesk.Pool.Placement
import OrderDesk.Power
import OrderDesk.Rehearsal
import OrderDesk.Rehearsal.Host
import OrderDesk.Rehearsal.Script
import OrderDesk.Rest
import OrderDesk.Rest.Gate
import OrderDesk.Rest.Http
import OrderDesk.Rest.Nonce
import OrderDesk.Rest.Signing
import OrderDesk.Settings
import OrderDesk.Settings.EnvFile
import OrderDesk.Span
import OrderDesk.Stream.Backoff
import OrderDesk.Stream.Execution
import OrderDesk.Stream.Frame
import OrderDesk.Stream.Message
import OrderDesk.Stream.Socket
import OrderDesk.Table
import OrderDesk.Text.Blank
import OrderDesk.Text.Digits
import OrderDesk.Text.LetterCase
import OrderDesk.Text.LetterCase.Table
import OrderDesk.Text.Letters
import OrderDesk.Text.Search
import OrderDesk.Wire.Account
import OrderDesk.Wire.Market
import OrderDesk.Wire.Order
import OrderDesk.Proofs.Table
import OrderDesk.Proofs.Act
import OrderDesk.Proofs.Pool.Books
import OrderDesk.Proofs.Pool.Connection
import OrderDesk.Proofs.Feed.Record
import OrderDesk.Proofs.Feed.Effect
import OrderDesk.Proofs.Feed.Orders
import OrderDesk.Proofs.Feed.Streams
import OrderDesk.Proofs.Feed.Replay
import OrderDesk.Proofs.Ensures
import OrderDesk.Proofs.Rest
import OrderDesk.Proofs.History
import OrderDesk.Proofs.Digits
import OrderDesk.Proofs.Fields
import OrderDesk.Proofs.Orders.Names
import OrderDesk.Proofs.Orders.Crew
import OrderDesk.Proofs.Orders.Alone
import OrderDesk.Proofs.Orders.Section
import OrderDesk.Proofs.Orders.Lock
import OrderDesk.Proofs.Orders.Tracking
import OrderDesk.Proofs.Orders.Attribution
import OrderDesk.Proofs.Orders.Documents
import OrderDesk.Proofs.Orders.Acceptance
import OrderDesk.Proofs.Watch
import OrderDesk.Proofs.Rest.Reports
import OrderDesk.Proofs.Rest.Retry
import OrderDesk.Proofs.Rest.Traffic
import OrderDesk.Proofs.Within
import OrderDesk.Proofs.Sessions
import OrderDesk.Proofs.Capitals
import OrderDesk.Proofs.Listing
import OrderDesk.Proofs.Feed.Journal
import OrderDesk.Proofs.Feed.Ticks
import OrderDesk.Proofs.Feed.Owners
import OrderDesk.Proofs.Rest.Persistence
import OrderDesk.Proofs.Paging
import OrderDesk.Proofs.Rest.Course
import OrderDesk.Proofs.Rest.Signatures
import OrderDesk.Proofs.Amounts
import OrderDesk.Proofs.Orders.Kinds
import OrderDesk.Proofs.Orders.Cancelling
import OrderDesk.Proofs.Keeping
import OrderDesk.Proofs.Keys.Ledger
import OrderDesk.Proofs.Keys.Supervision
import OrderDesk.Proofs.Keys.Line
import OrderDesk.Proofs.Keys.Calls
import OrderDesk.Proofs.Keys.Protocol
import OrderDesk.Proofs.Orders.AllOrNothing
import OrderDesk.Proofs.Pool.Weights
import OrderDesk.Proofs.Feed.Charges
import OrderDesk.Proofs.Leads
import OrderDesk.Proofs.Cancellation
import OrderDesk.Proofs.Feed.Shutdown
import OrderDesk.Proofs.Pool.Choice
import OrderDesk.Proofs.Feed.Room
import OrderDesk.Proofs.Orders.Stops
import OrderDesk.Proofs.Orders.Bodies
import OrderDesk.Proofs.Rest.Stamps
import OrderDesk.Proofs.Tickers
import OrderDesk.Proofs.Environment
import OrderDesk.Proofs.Executions
import OrderDesk.Proofs.Orders.Listed
import OrderDesk.Proofs.Orders.Forgetting
import OrderDesk.Proofs.Parameters
import OrderDesk.Proofs.Orders.Refusals
import OrderDesk.Proofs.Sockets
import OrderDesk.Proofs.Cursors
import OrderDesk.Proofs.Rest.Clocks
import OrderDesk.Proofs.Records.Survival
import OrderDesk.Proofs.Pacing
import OrderDesk.Proofs.Rest.Policies
import OrderDesk.Proofs.Sums
import OrderDesk.Proofs.Balances
