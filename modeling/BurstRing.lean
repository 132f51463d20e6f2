import BurstRing.CommandLine.Arguments
import BurstRing.CommandLine.Execute
import BurstRing.CommandLine.Report
import BurstRing.CommandTable
import BurstRing.Config.Basic
import BurstRing.Config.Decode
import BurstRing.Config.Load
import BurstRing.Config.Mismatch
import BurstRing.Config.Settings
import BurstRing.Config.Validate
import BurstRing.Cpu.Allocator
import BurstRing.Cpu.CpuList
import BurstRing.Decimal.Binary64
import BurstRing.Decimal.Shortest
import BurstRing.Error
import BurstRing.Flush
import BurstRing.Ident
import BurstRing.Json.Basic
import BurstRing.Json.Codec
import BurstRing.Json.Reader
import BurstRing.Json.Writer
import BurstRing.LinkCounts
import BurstRing.Main
import BurstRing.Name
import BurstRing.Overflow
import BurstRing.Pipeline.Drain
import BurstRing.Pipeline.Loop
import BurstRing.Pipeline.Rehearsal
import BurstRing.Policy
import BurstRing.Proofs.Ring.Change
import BurstRing.Proofs.Ring.Progress
import BurstRing.Proofs.Ring.Slot
import BurstRing.Proofs.Ring.Tile
import BurstRing.ReceiveCache
import BurstRing.Registry
import BurstRing.Ring.Basic
import BurstRing.Ring.Call
import BurstRing.Ring.Cursors
import BurstRing.Ring.Endpoint
import BurstRing.Ring.Handle
import BurstRing.Ring.Reading
import BurstRing.Ring.Reply
import BurstRing.Ring.Shape
import BurstRing.Ring.Storage
import BurstRing.Ring.System
import BurstRing.Ring.Tag
import BurstRing.Ring.Traffic
import BurstRing.Run.Consumer
import BurstRing.Run.Producer
import BurstRing.Run.Session
import BurstRing.Source.Basic
import BurstRing.Source.Scripted
import BurstRing.Source.Synthetic
import BurstRing.Stress.Check
import BurstRing.Stress.Plan
import BurstRing.Text.Blank
import BurstRing.Text.Numeral
import BurstRing.Text.Printable
import BurstRing.Text.Quoted
import BurstRing.Yaml.Cursor
import BurstRing.Yaml.Document
import BurstRing.Yaml.Node
import BurstRing.Yaml.Node.OfTokens
import BurstRing.Yaml.Scalar
import BurstRing.Yaml.Tag
import BurstRing.Yaml.Token
import BurstRing.Yaml.Token.Property
import BurstRing.Yaml.Token.Scalar
import BurstRing.Yaml.Token.Stream
import BurstRing.Proofs.Ring.Order
import BurstRing.Proofs.Ring.Exclusive
import BurstRing.Proofs.Ring.Delivery
import BurstRing.Proofs.Ring.Fifo
import BurstRing.Proofs.Ring.Alone
import BurstRing.Proofs.Ring.Bytes
import BurstRing.Proofs.Ring.Queue
import BurstRing.Proofs.Ring.Contents
import BurstRing.Proofs.Cache.Audit
import BurstRing.Proofs.Cache.Custody
import BurstRing.Proofs.Ring.Ledger
import BurstRing.Proofs.Ring.History
import BurstRing.Proofs.Ring.Shortfall
import BurstRing.Proofs.Ring.Owned
import BurstRing.Proofs.Ring.Endpoints
import BurstRing.Proofs.Config.Checked
import BurstRing.Proofs.Registry.Creation
import BurstRing.Proofs.Run.Producer
import BurstRing.Proofs.Run.Consumer
import BurstRing.Proofs.Run.Halting
import BurstRing.Proofs.Run.Balance
import BurstRing.Proofs.Run.Outset
import BurstRing.Proofs.Run.Accounts
import BurstRing.Proofs.LinkCounts.History
import BurstRing.Proofs.Registry.History
import BurstRing.Proofs.Registry.Answers
import BurstRing.Proofs.Pipeline.Cadence
import BurstRing.Proofs.Pipeline.Relay
import BurstRing.Proofs.Stress.Places
import BurstRing.Proofs.Stress.Schedules
import BurstRing.Proofs.Registry.Instantiation
import BurstRing.Proofs.CommandTable.Registration
import BurstRing.Proofs.Ring.Split
import BurstRing.Proofs.Ring.Overtaken
import BurstRing.Proofs.Ring.Counting
import BurstRing.Proofs.Ring.Reservation
import BurstRing.Proofs.Ring.Request
import BurstRing.Proofs.Ring.Effects
import BurstRing.Proofs.Cache.Refill
import BurstRing.Proofs.Config.Rules
import BurstRing.Proofs.Pipeline.Buffering
import BurstRing.Proofs.Run.Consumption
import BurstRing.Proofs.Text.Grammar
import BurstRing.Proofs.CommandTable.Dispatch
import BurstRing.Proofs.Cpu.CpuList
import BurstRing.Proofs.Json.ReadBack
import BurstRing.Proofs.Json.Values
import BurstRing.Proofs.Config.Tree
import BurstRing.Proofs.Config.Schema
import BurstRing.Proofs.Config.Entries
import BurstRing.Proofs.Config.Restated
import BurstRing.Proofs.Cpu.Turns
import BurstRing.Proofs.Stress.Capacity
import BurstRing.Proofs.Error.Kinds
import BurstRing.Proofs.Ring.Turned
import BurstRing.Proofs.Ring.Copies
import BurstRing.Proofs.Ring.Rounds
