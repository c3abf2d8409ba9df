import RouterAgent.Backoff
import RouterAgent.Calendar
import RouterAgent.Client
import RouterAgent.CommandLine
import RouterAgent.CommandLine.Words
import RouterAgent.Config
import RouterAgent.Detection
import RouterAgent.Fault
import RouterAgent.HardwareAddress
import RouterAgent.Host
import RouterAgent.Journal
import RouterAgent.Lease.Dnsmasq
import RouterAgent.Lease.File
import RouterAgent.Lease.Isc
import RouterAgent.Lease.Problem
import RouterAgent.Main
import RouterAgent.Number.Binary64
import RouterAgent.Number.Decimal
import RouterAgent.Number.Rounding
import RouterAgent.Number.Shortest
import RouterAgent.OrderedMap
import RouterAgent.Path
import RouterAgent.Platform
import RouterAgent.Platform.Hook
import RouterAgent.Platform.Registry
import RouterAgent.Process
import RouterAgent.Readiness
import RouterAgent.Router
import RouterAgent.Session
import RouterAgent.SettingsStore
import RouterAgent.Text.Blank
import RouterAgent.Text.Blocks
import RouterAgent.Text.Digit
import RouterAgent.Text.Integer
import RouterAgent.Text.Point
import RouterAgent.Text.Printable
import RouterAgent.Text.Quoted
import RouterAgent.Text.Utf8
import RouterAgent.Value
import RouterAgent.Value.Json
import RouterAgent.Value.Text
import RouterAgent.Watcher
import RouterAgent.Watcher.Feed
import RouterAgent.Watcher.Step
import RouterAgent.World
import RouterAgent.Yaml
import RouterAgent.Yaml.Cell
import RouterAgent.Yaml.Node
import RouterAgent.Yaml.Scalar
import RouterAgent.Yaml.Source
import RouterAgent.Yaml.Token
import RouterAgent.Proofs.Table.Ownership
import RouterAgent.Proofs.Table.History
import RouterAgent.Proofs.Watcher.Reading
import RouterAgent.Proofs.Watcher.Pace
import RouterAgent.Proofs.Watcher.Refinement
import RouterAgent.Proofs.Crew.Act
import RouterAgent.Proofs.Crew.Account
import RouterAgent.Proofs.Crew.Mail
import RouterAgent.Proofs.Crew.Patience
import RouterAgent.Proofs.Crew.Alone
import RouterAgent.Proofs.Crew.Uninterrupted
import RouterAgent.Proofs.Crew.Refinement
import RouterAgent.Proofs.Crew.Phase
import RouterAgent.Proofs.Table.Merge
import RouterAgent.Proofs.Watcher.Refresh
import RouterAgent.Proofs.Table.Newest
import RouterAgent.Proofs.Watcher.Standing
import RouterAgent.Proofs.Watcher.Enlisting
import RouterAgent.Proofs.Platform.Frame
import RouterAgent.Proofs.Router.Warmup
import RouterAgent.Proofs.Crew.Warmup
import RouterAgent.Proofs.Crew.Rounds
import RouterAgent.Proofs.Router.Configure
import RouterAgent.Proofs.Router.Once
import RouterAgent.Proofs.Publication.Race
import RouterAgent.Proofs.Publication.First
import RouterAgent.Proofs.Path.Parent
import RouterAgent.Proofs.Watcher.Restart
import RouterAgent.Proofs.Watcher.Delivery
import RouterAgent.Proofs.Lease.Torn
import RouterAgent.Proofs.Table.LastOfEach
import RouterAgent.Proofs.Text.Lines
import RouterAgent.Proofs.Lease.Layout
import RouterAgent.Proofs.Lease.TornBlocks
import RouterAgent.Proofs.Lease.Database
import RouterAgent.Proofs.HardwareAddress.Spelling
import RouterAgent.Proofs.Text.Numeral
import RouterAgent.Proofs.Lease.Rendering
import RouterAgent.Proofs.Lease.Lookup
import RouterAgent.Proofs.Backoff.Delays
import RouterAgent.Proofs.Readiness.Rounds
import RouterAgent.Proofs.Readiness.Scenario
import RouterAgent.Proofs.Config.Accepted
import RouterAgent.Proofs.Config.Resolvers
import RouterAgent.Proofs.Lease.Slot
import RouterAgent.Proofs.Lease.Quoting
import RouterAgent.Proofs.Table.Change
import RouterAgent.Proofs.Table.Exchange
import RouterAgent.Proofs.Lease.Concatenation
import RouterAgent.Proofs.Lease.QuotedName
import RouterAgent.Proofs.Watcher.Notice
import RouterAgent.Proofs.Detection.FirstMatch
import RouterAgent.Proofs.Platform.Precondition
import RouterAgent.Proofs.Calendar.Days
import RouterAgent.Proofs.Calendar.Moment
import RouterAgent.Proofs.Text.Digits
import RouterAgent.Proofs.Lease.Ends
import RouterAgent.Proofs.Number.Rational
import RouterAgent.Proofs.Backoff.Calls
