import Prefilter.Cluster.Layout
import Prefilter.Cluster.Node
import Prefilter.Cluster.Query
import Prefilter.Cluster.Search
import Prefilter.Config.Derived
import Prefilter.Config.Document
import Prefilter.Config.Mismatch
import Prefilter.Config.Settings
import Prefilter.Dispatch.Error
import Prefilter.Dispatch.Pool
import Prefilter.Numeric.Binary64
import Prefilter.Numeric.Decimal
import Prefilter.Numeric.Numeral
import Prefilter.Phase.Event
import Prefilter.Phase.Play
import Prefilter.Phase.Request
import Prefilter.Phase.Stack
import Prefilter.Phase.State
import Prefilter.Phase.Step
import Prefilter.Probe.Carrier
import Prefilter.Probe.Directory
import Prefilter.Probe.Error
import Prefilter.Probe.Listener
import Prefilter.Probe.Message
import Prefilter.Rehearsal.Flights
import Prefilter.Rehearsal.Jobs
import Prefilter.Rehearsal.Phases
import Prefilter.Routing.Ordered
import Prefilter.Routing.Outcome
import Prefilter.Routing.Policy
import Prefilter.Shard.Name
import Prefilter.Shard.Target
import Prefilter.Sort.Bound
import Prefilter.Text.Combining
import Prefilter.Text.Quoted
import Prefilter.Text.Unprintable
import Prefilter.Text.Utf8
import Prefilter.Time.Span
import Prefilter.Toml.Document
import Prefilter.Toml.Item
import Prefilter.Toml.Lexical
import Prefilter.Toml.Number
import Prefilter.Wire.Codec
import Prefilter.Wire.Format
import Prefilter.Wire.Frame
import Prefilter.Wire.Sequence
import Prefilter.Wire.Varint
import Prefilter.Proofs.Routing.Delivery
import Prefilter.Proofs.Phase.Duty
import Prefilter.Proofs.Phase.Balance
import Prefilter.Proofs.Phase.Extension
import Prefilter.Proofs.Phase.Grounded
import Prefilter.Proofs.Phase.Sound
import Prefilter.Proofs.Phase.Induction
import Prefilter.Proofs.Phase.Run
import Prefilter.Proofs.Phase.Completion
import Prefilter.Proofs.Phase.SlotChange
import Prefilter.Proofs.Phase.Journal
import Prefilter.Proofs.Phase.Obligation
import Prefilter.Proofs.Phase.Custody
import Prefilter.Proofs.Phase.Admission
import Prefilter.Proofs.Phase.FailOpen
import Prefilter.Proofs.Phase.Environment
import Prefilter.Proofs.Phase.Refinement
import Prefilter.Proofs.Routing.Arrangement
import Prefilter.Proofs.Routing.Independence
import Prefilter.Proofs.Sort.Ends
import Prefilter.Proofs.Shard.Identity
import Prefilter.Proofs.Dispatch.Drive
import Prefilter.Proofs.Dispatch.Fates
import Prefilter.Proofs.Dispatch.Occupancy
import Prefilter.Proofs.Dispatch.Ready
import Prefilter.Proofs.Stack.Exchange
import Prefilter.Proofs.Stack.Work
import Prefilter.Proofs.Stack.Settlement
import Prefilter.Proofs.Probe.Landing
import Prefilter.Proofs.Stack.Handover
import Prefilter.Proofs.Stack.Journey
import Prefilter.Proofs.Stack.Arrival
import Prefilter.Proofs.Cluster.Answer
import Prefilter.Proofs.Cluster.Placement
import Prefilter.Proofs.Cluster.Search
import Prefilter.Proofs.Wire.Framing
import Prefilter.Proofs.Wire.Lossless
import Prefilter.Proofs.Wire.Number
import Prefilter.Proofs.Wire.Shortest
import Prefilter.Proofs.Phase.Failover
import Prefilter.Proofs.Phase.Passage
import Prefilter.Proofs.Phase.Likeness
import Prefilter.Proofs.Phase.Retelling
import Prefilter.Proofs.Stack.Teardown
import Prefilter.Proofs.Dispatch.History
import Prefilter.Proofs.Dispatch.Accounting
import Prefilter.Proofs.Dispatch.Closing
import Prefilter.Proofs.Probe.Resolution
import Prefilter.Proofs.Phase.Account
import Prefilter.Proofs.Phase.Deeds
import Prefilter.Proofs.Phase.Loop
import Prefilter.Proofs.Phase.Telling
import Prefilter.Proofs.Phase.Failures
import Prefilter.Proofs.Phase.Hearing
import Prefilter.Proofs.Phase.Expectation
import Prefilter.Proofs.Phase.Reports
import Prefilter.Proofs.Cluster.Indexing
import Prefilter.Proofs.Cluster.Service
import Prefilter.Proofs.Toml.Range
import Prefilter.Proofs.Toml.Numeral
import Prefilter.Proofs.Toml.Lines
import Prefilter.Proofs.Config.Documents
import Prefilter.Proofs.Config.Capacity
import Prefilter.Proofs.Routing.Comparison
import Prefilter.Proofs.Phase.Congruence
import Prefilter.Proofs.Phase.Prehistory
import Prefilter.Proofs.Phase.Refusal
import Prefilter.Proofs.Phase.Threads
import Prefilter.Proofs.Phase.Onset
import Prefilter.Proofs.Phase.Nesting
import Prefilter.Proofs.Phase.Cost
import Prefilter.Proofs.Phase.Recursion
