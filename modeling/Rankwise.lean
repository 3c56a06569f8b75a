import Rankwise.Failure
import Rankwise.Named
import Rankwise.Double
import Rankwise.Double.Nearest
import Rankwise.Double.Shortest
import Rankwise.Table.Scalar
import Rankwise.Table.Schema
import Rankwise.Table.Batch
import Rankwise.Json
import Rankwise.Json.Numeral
import Rankwise.Json.Token
import Rankwise.Json.Written
import Rankwise.Json.Decoder
import Rankwise.Json.Writer
import Rankwise.CallId
import Rankwise.Group.Value
import Rankwise.Group.RankFailure
import Rankwise.Group.Computation
import Rankwise.Group.Message
import Rankwise.Wire.Table
import Rankwise.Wire.Value
import Rankwise.Wire.Message
import Rankwise.Wire.Stream
import Rankwise.Group.LazyTable
import Rankwise.Plan.Expression
import Rankwise.Plan.Operator
import Rankwise.Plan.Operand
import Rankwise.Plan.Arena
import Rankwise.Plan.Retarget
import Rankwise.Plan.Projection
import Rankwise.Plan.Explain
import Rankwise.Plan.Cardinality
import Rankwise.Plan.Scan
import Rankwise.Wire.Plan
import Rankwise.Text.Blank
import Rankwise.Settings
import Rankwise.Group.Environment
import Rankwise.Group.Registry
import Rankwise.Group.Frame
import Rankwise.Group.Shipment
import Rankwise.Group.Dialogue
import Rankwise.Group.Connection
import Rankwise.Group.Worker
import Rankwise.Group.Call
import Rankwise.Group.Spawner
import Rankwise.Plan.Engine
import Rankwise.Plan.Conversion
import Rankwise.Plan.Execution
import Rankwise.Group.Inbox
import Rankwise.Group.InProcess
import Rankwise.Rehearsal.Script
import Rankwise.Rehearsal.RecordingEngine
import Rankwise.Rehearsal.Computations
import Rankwise.Wire.Failure
import Rankwise.Wire.Frame
import Rankwise.Wire.Summary
import Rankwise.Rehearsal.Report
import Rankwise.Rehearsal.Slots
import Rankwise.Rehearsal.Renaming
import Rankwise.Group.NoProgram
import Rankwise.Text.Hexadecimal
import Rankwise.Rehearsal.Setup
import Rankwise.Rehearsal.Reference
import Rankwise.CommandLine
import Rankwise.Main
import Rankwise.Rehearsal.Request
import Rankwise.Rehearsal.Shipping
import Rankwise.Rehearsal.Desk
import Rankwise.Rehearsal.Drafting
import Rankwise.Proofs.Exchanges
import Rankwise.Proofs.PlanLocality
import Rankwise.Proofs.Synchrony
import Rankwise.Proofs.Rows
import Rankwise.Proofs.BuiltPlans
import Rankwise.Proofs.Formulas
import Rankwise.Proofs.Retargeting
import Rankwise.Proofs.EngineCalls
import Rankwise.Proofs.Ownership
import Rankwise.Proofs.RoundTrip
import Rankwise.Proofs.ResultNames
import Rankwise.Proofs.Custody
import Rankwise.Proofs.CustodyCalls
import Rankwise.Proofs.Clients
import Rankwise.Proofs.Lines
import Rankwise.Proofs.RowPlans
import Rankwise.Proofs.RowEngines
import Rankwise.Proofs.Practices
import Rankwise.Proofs.RowConversions
import Rankwise.Proofs.RowRuns
import Rankwise.Proofs.Placement
import Rankwise.Proofs.Agreement
import Rankwise.Proofs.Textbook
import Rankwise.Proofs.CountPlans
import Rankwise.Proofs.CountRuns
import Rankwise.Proofs.Counting
import Rankwise.Proofs.Generations
import Rankwise.Proofs.Usability
import Rankwise.Proofs.WellFormedPlans
import Rankwise.Proofs.CutStreams
import Rankwise.Proofs.Matching
import Rankwise.Proofs.EndlessPlans
import Rankwise.Proofs.FramesAfterCalls
import Rankwise.Proofs.Firms
import Rankwise.Proofs.Chronicles
import Rankwise.Proofs.Courses
import Rankwise.Proofs.KnownRows
import Rankwise.Proofs.Shifting
import Rankwise.Proofs.Unfolding
import Rankwise.Proofs.Naming
import Rankwise.Proofs.ScopedBuilding
import Rankwise.Proofs.Discovery
import Rankwise.Proofs.Blocks
import Rankwise.Proofs.DistributedParameters
import Rankwise.Proofs.RankFailures
import Rankwise.Proofs.Refusals
import Rankwise.Proofs.Reception
import Rankwise.Proofs.Forwarding
import Rankwise.Proofs.Growth
import Rankwise.Proofs.Displays
import Rankwise.Proofs.Composition
import Rankwise.Proofs.Diagnostics
