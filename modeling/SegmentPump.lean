import SegmentPump.Main
import SegmentPump.Rehearsal.Walk
import SegmentPump.Session.Identifier
import SegmentPump.Sink.Stock
import SegmentPump.Proofs.Backlog
import SegmentPump.Proofs.Backlog.Order
import SegmentPump.Proofs.Generator.Payload
import SegmentPump.Proofs.Generator.Range
import SegmentPump.Proofs.Pump.Reaction
import SegmentPump.Proofs.Pump.Course
import SegmentPump.Proofs.Pump.Ledger
import SegmentPump.Proofs.Pump.Confluence
import SegmentPump.Proofs.Pump.Intact
import SegmentPump.Proofs.Session.Turn
import SegmentPump.Proofs.Session.Run
import SegmentPump.Proofs.Session.History
import SegmentPump.Proofs.Session.Refinement
import SegmentPump.Proofs.Session.Waiting
import SegmentPump.Proofs.Session.Pacing
import SegmentPump.Proofs.Session.Thinning
import SegmentPump.Proofs.Pump.Channel
import SegmentPump.Proofs.Simulation.Flow
import SegmentPump.Proofs.Simulation.Numbering
import SegmentPump.Proofs.Simulation.Conservation
import SegmentPump.Proofs.Simulation.Stage
import SegmentPump.Proofs.Simulation.Served
import SegmentPump.Proofs.Simulation.Work
import SegmentPump.Proofs.Simulation.Clock
import SegmentPump.Proofs.Simulation.Delivery
import SegmentPump.Proofs.Simulation.Emission
import SegmentPump.Proofs.Session.Ending
import SegmentPump.Proofs.Rehearsal.Beat
import SegmentPump.Proofs.Rehearsal.Driven
import SegmentPump.Proofs.Rehearsal.Going
import SegmentPump.Proofs.Rehearsal.Interleaving
import SegmentPump.Proofs.Rehearsal.Payloads
import SegmentPump.Proofs.Rehearsal.Walk
import SegmentPump.Proofs.Trace.Blame
import SegmentPump.Proofs.Trace.Delivered
import SegmentPump.Proofs.Pump.Readiness
import SegmentPump.Proofs.Rehearsal.Repeats
import SegmentPump.Proofs.Pump.Failure
import SegmentPump.Proofs.Pump.Counters
import SegmentPump.Proofs.Pump.Alternation
import SegmentPump.Proofs.Pump.Warning
import SegmentPump.Proofs.Rehearsal.Readout
import SegmentPump.Proofs.CommandLine.Layers
import SegmentPump.Proofs.CommandLine.Replay
import SegmentPump.Proofs.Text.Decimal
import SegmentPump.Proofs.Settings.Sizes
import SegmentPump.Proofs.Pump.Audit
import SegmentPump.Proofs.Session.Closing
