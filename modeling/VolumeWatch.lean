import VolumeWatch.Alert
import VolumeWatch.Bar
import VolumeWatch.Calendar.ClockTime
import VolumeWatch.Calendar.Date
import VolumeWatch.Calendar.Duration
import VolumeWatch.Calendar.Instant
import VolumeWatch.Calendar.Scan
import VolumeWatch.Calendar.Timestamp
import VolumeWatch.Calendar.Zone
import VolumeWatch.Calendar.ZoneTable
import VolumeWatch.Category
import VolumeWatch.Classifier
import VolumeWatch.Command.Directory
import VolumeWatch.Command.Request
import VolumeWatch.Command.Run
import VolumeWatch.Command.Zones
import VolumeWatch.Contract
import VolumeWatch.Decimal.Numeral
import VolumeWatch.Decimal.Reading
import VolumeWatch.Decimal.Shortest
import VolumeWatch.Desk
import VolumeWatch.Engine
import VolumeWatch.Fault.Basic
import VolumeWatch.Fault.Message
import VolumeWatch.Json.Basic
import VolumeWatch.Json.Reader
import VolumeWatch.Json.Token
import VolumeWatch.Json.Writer
import VolumeWatch.Main
import VolumeWatch.Market
import VolumeWatch.Outcome
import VolumeWatch.Proofs.Contract
import VolumeWatch.Proofs.Desk.Publishing
import VolumeWatch.Proofs.Desk.Reach
import VolumeWatch.Proofs.Desk.Returned
import VolumeWatch.Proofs.Desk.Tiling
import VolumeWatch.Proofs.Desk.Weighing
import VolumeWatch.Proofs.Engine.Accounts
import VolumeWatch.Proofs.Engine.Alike
import VolumeWatch.Proofs.Engine.Arrivals
import VolumeWatch.Proofs.Engine.Discards
import VolumeWatch.Proofs.Engine.Drain
import VolumeWatch.Proofs.Engine.Feeding
import VolumeWatch.Proofs.Engine.Isolation
import VolumeWatch.Proofs.Engine.Looks
import VolumeWatch.Proofs.Engine.MarketTime
import VolumeWatch.Proofs.Engine.Punctual
import VolumeWatch.Proofs.Engine.Records
import VolumeWatch.Proofs.Engine.ReferenceTime
import VolumeWatch.Proofs.Engine.Rest
import VolumeWatch.Proofs.Engine.Rulings
import VolumeWatch.Proofs.Engine.Turns
import VolumeWatch.Proofs.Ledger
import VolumeWatch.Proofs.Market.Between
import VolumeWatch.Proofs.Market.Described
import VolumeWatch.Proofs.Market.Feeds
import VolumeWatch.Proofs.Market.Isolation
import VolumeWatch.Proofs.Market.Pace
import VolumeWatch.Proofs.Outcome.Earned
import VolumeWatch.Proofs.Outcome.Foresight
import VolumeWatch.Proofs.Outcome.Stretch
import VolumeWatch.Proofs.Queue.Histories
import VolumeWatch.Proofs.Record.Rebuilding
import VolumeWatch.Proofs.Replay.Actions
import VolumeWatch.Proofs.Replay.Log
import VolumeWatch.Proofs.Replay.Padding
import VolumeWatch.Proofs.RunningStat.Deviation
import VolumeWatch.Proofs.Scalar.Binary
import VolumeWatch.Proofs.Scalar.Exact
import VolumeWatch.Proofs.Scalar.Ordered
import VolumeWatch.Proofs.Scalar.Rounding
import VolumeWatch.Proofs.Scalar.Sums
import VolumeWatch.Proofs.Scalar.TotalOrder
import VolumeWatch.Proofs.Scalar.Words
import VolumeWatch.Proofs.Series.Aggregation
import VolumeWatch.Proofs.Series.Covering
import VolumeWatch.Proofs.Series.Cumulative
import VolumeWatch.Proofs.Series.Deriving
import VolumeWatch.Proofs.Series.Extremes
import VolumeWatch.Proofs.Series.Flags
import VolumeWatch.Proofs.Series.Folding
import VolumeWatch.Proofs.Series.Listening
import VolumeWatch.Proofs.Series.Nesting
import VolumeWatch.Proofs.Series.Prices
import VolumeWatch.Proofs.Series.Units
import VolumeWatch.Proofs.Series.WellFormed
import VolumeWatch.Proofs.Series.Windows
import VolumeWatch.Proofs.Session.Hours
import VolumeWatch.Proofs.Session.Verdicts
import VolumeWatch.Proofs.Settings.Lookahead
import VolumeWatch.Proofs.Settings.Overlay
import VolumeWatch.Proofs.Settings.Validation
import VolumeWatch.Proofs.Statistics.Entries
import VolumeWatch.Proofs.Statistics.Keys
import VolumeWatch.Proofs.Statistics.Marginals
import VolumeWatch.Proofs.Statistics.Ranking
import VolumeWatch.Proofs.Statistics.Snapshots
import VolumeWatch.Proofs.Statistics.Totals
import VolumeWatch.Proofs.Tag.Moneyness
import VolumeWatch.Proofs.Tag.Order
import VolumeWatch.Proofs.Tag.Packing
import VolumeWatch.Proofs.Tasks.Log
import VolumeWatch.Proofs.Tasks.Turns
import VolumeWatch.Queue.Bounded
import VolumeWatch.Queue.Fifo
import VolumeWatch.Record
import VolumeWatch.Replay
import VolumeWatch.RunningStat
import VolumeWatch.Scalar
import VolumeWatch.Series.Basic
import VolumeWatch.Series.Extremes
import VolumeWatch.Series.Partition
import VolumeWatch.Series.Watch
import VolumeWatch.Session
import VolumeWatch.Settings.Basic
import VolumeWatch.Settings.Message
import VolumeWatch.Settings.Variables
import VolumeWatch.SortedMap
import VolumeWatch.Statistics.Basic
import VolumeWatch.Statistics.Entry
import VolumeWatch.Statistics.Snapshot
import VolumeWatch.Stored.Basic
import VolumeWatch.Stored.Fault
import VolumeWatch.Stored.Record
import VolumeWatch.Stored.Series
import VolumeWatch.Stored.Statistics
import VolumeWatch.Stored.Tags
import VolumeWatch.Tag.Bucket
import VolumeWatch.Tag.Dimension
import VolumeWatch.Tag.Nibbles
import VolumeWatch.Tag.Tags
import VolumeWatch.Tasks
import VolumeWatch.Text.Blank
import VolumeWatch.Text.Digits
import VolumeWatch.Text.Hidden
import VolumeWatch.Text.Quoted
import VolumeWatch.Timeframe
