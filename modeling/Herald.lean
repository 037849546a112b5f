import Herald.Breaker
import Herald.Calendar.Date
import Herald.Calendar.Timestamp
import Herald.Channel
import Herald.Channel.Bark
import Herald.Channel.Body
import Herald.Channel.Payload
import Herald.Channel.Raw
import Herald.Channel.Sender
import Herald.Channel.WeCom
import Herald.Cli.Arguments
import Herald.Cli.Command
import Herald.Cli.Program
import Herald.Config
import Herald.Crash
import Herald.Decimal.Binary
import Herald.Decimal.Places
import Herald.Decimal.Shortest
import Herald.Delivery.Basic
import Herald.Delivery.Course
import Herald.Delivery.Floor
import Herald.Delivery.Policy
import Herald.Delivery.Report
import Herald.Delivery.Run
import Herald.Event
import Herald.Failure
import Herald.Guard
import Herald.Hook
import Herald.Http.Exchange
import Herald.Http.Message
import Herald.Http.Snippet
import Herald.Http.Talk
import Herald.Json.Fault
import Herald.Json.Reader
import Herald.Json.Record
import Herald.Json.Scan
import Herald.Json.Skip
import Herald.Json.Writer
import Herald.KeyMap
import Herald.Locator
import Herald.Main
import Herald.Net.Address
import Herald.Net.DomainName
import Herald.Net.Punycode
import Herald.Notice
import Herald.Order.Basic
import Herald.Order.Line
import Herald.Order.Summary
import Herald.Owner
import Herald.Proofs.Breaker.History
import Herald.Proofs.Calendar.Timestamp
import Herald.Proofs.Channel.Authority
import Herald.Proofs.Channel.Carried
import Herald.Proofs.Channel.Chains
import Herald.Proofs.Channel.Dialogue
import Herald.Proofs.Channel.Excerpt
import Herald.Proofs.Channel.Fallback
import Herald.Proofs.Channel.Origin
import Herald.Proofs.Channel.Reach
import Herald.Proofs.Channel.Verdict
import Herald.Proofs.Completion.Attention
import Herald.Proofs.Completion.Dispatch
import Herald.Proofs.Completion.Fate
import Herald.Proofs.Completion.Regular
import Herald.Proofs.Completion.Settings
import Herald.Proofs.Completion.Tries
import Herald.Proofs.Config.Layers
import Herald.Proofs.Config.Words
import Herald.Proofs.Decimal.Unsigned
import Herald.Proofs.Delivery.Attempts
import Herald.Proofs.Delivery.Cancellation
import Herald.Proofs.Delivery.Chains
import Herald.Proofs.Delivery.Clock
import Herald.Proofs.Delivery.Deadline
import Herald.Proofs.Delivery.Report
import Herald.Proofs.Delivery.Run
import Herald.Proofs.Delivery.Scene
import Herald.Proofs.Delivery.Tally
import Herald.Proofs.Delivery.Turn
import Herald.Proofs.Delivery.Uncut
import Herald.Proofs.Guard
import Herald.Proofs.Guard.Agreement
import Herald.Proofs.Guard.Blocks
import Herald.Proofs.Http.Chain
import Herald.Proofs.Http.Limit
import Herald.Proofs.Http.Traffic
import Herald.Proofs.Interleaving.Access
import Herald.Proofs.Interleaving.Calls
import Herald.Proofs.Interleaving.Chains
import Herald.Proofs.Interleaving.OpenBreaker
import Herald.Proofs.Interleaving.Rejections
import Herald.Proofs.Interleaving.Slots
import Herald.Proofs.Interleaving.Trace
import Herald.Proofs.Isolation.Agenda
import Herald.Proofs.Isolation.Hosts
import Herald.Proofs.Isolation.Mirror
import Herald.Proofs.Isolation.Relabel
import Herald.Proofs.Isolation.Selection
import Herald.Proofs.Json.Accepted
import Herald.Proofs.Json.Composed
import Herald.Proofs.Json.Gives
import Herald.Proofs.Json.Grammar
import Herald.Proofs.Json.Numbers
import Herald.Proofs.Json.Passing
import Herald.Proofs.Json.Roundtrip
import Herald.Proofs.Json.Slots
import Herald.Proofs.Json.Strings
import Herald.Proofs.Json.Unambiguous
import Herald.Proofs.Json.Values
import Herald.Proofs.Json.Written
import Herald.Proofs.Locator.Rules
import Herald.Proofs.Locator.Shorthand
import Herald.Proofs.Order.Forms
import Herald.Proofs.Order.Grammar
import Herald.Proofs.Order.Item
import Herald.Proofs.Order.Layout
import Herald.Proofs.Order.Metadata
import Herald.Proofs.Order.Reprint
import Herald.Proofs.Order.Reread
import Herald.Proofs.Order.Total
import Herald.Proofs.Owner
import Herald.Proofs.Owner.Reference
import Herald.Proofs.Schedule.Alone
import Herald.Proofs.Schedule.Cancellation
import Herald.Proofs.Schedule.Deadline
import Herald.Proofs.Schedule.Floor
import Herald.Proofs.Schedule.Jitter
import Herald.Proofs.Schedule.Turn
import Herald.Proofs.Schedule.Visit
import Herald.Proofs.Slots.Delivery
import Herald.Proofs.Slots.Floor
import Herald.Proofs.Slots.History
import Herald.Proofs.Slots.Reached
import Herald.Proofs.Store
import Herald.Proofs.Text.Numeral
import Herald.Proofs.Text.Percent
import Herald.Proofs.Text.Phrase
import Herald.Proofs.Text.Truncated
import Herald.Proofs.Text.Utf8
import Herald.Proofs.Url.Host
import Herald.Proofs.Url.Segments
import Herald.Registry
import Herald.Service
import Herald.SlotPool
import Herald.Source
import Herald.Store
import Herald.Text.Base64
import Herald.Text.Blank
import Herald.Text.Numeral
import Herald.Text.Percent
import Herald.Text.Quoted
import Herald.Text.Utf8
import Herald.Unicode.Composition
import Herald.Unicode.DecimalDigit
import Herald.Unicode.Direction
import Herald.Unicode.DomainMapping
import Herald.Unicode.Hidden
import Herald.Unicode.Joining
import Herald.Unicode.Mark
import Herald.Unicode.Ranges
import Herald.Url.Basic
import Herald.Url.HostParser
import Herald.Url.Parser
import Herald.Url.Path
import Herald.Url.Segments
