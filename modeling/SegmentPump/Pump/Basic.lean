import SegmentPump.Backlog
import SegmentPump.Sink
import SegmentPump.Stats

/-! The pump: a backlog, a sink with a single slot, a readiness latch and a
backlog warning that is armed or spent. -/
namespace SegmentPump

inductive Event
  | arrived (segment : Segment)
  | sinkReady
  | completed
  deriving DecidableEq

namespace Event

def name : Event → String
  | .arrived _ => "SegmentArrived"
  | .sinkReady => "SinkBecameReady"
  | .completed => "AppendCompleted"

def describe (e : Event) : String :=
  match e with
  | .arrived segment => s!"{e.name}({segment.describe})"
  | _ => e.name

end Event

inductive PumpError
  | queue (error : BacklogError)
  | unexpectedCompletion
  | sink (refusal : Refusal)
  deriving DecidableEq, Repr

namespace PumpError

def message : PumpError → String
  | .queue error => s!"Queue error: {error.message}"
  | .unexpectedCompletion => "Sink reported append completion with no append in flight"
  | .sink refusal => s!"Sink error: {refusal.message}"

def isProtocolViolation : PumpError → Bool
  | .unexpectedCompletion => true
  | _ => false

end PumpError

structure Counters where
  segmentsReceived : Nat := 0
  bytesReceived : Nat := 0
  segmentsAppended : Nat := 0
  bytesAppended : Nat := 0
  completions : Nat := 0
  peakDepth : Nat := 0
  deriving DecidableEq, Repr, Inhabited

structure Pump (σ : Type) where
  sink : σ
  backlog : Backlog := .empty
  slot : Slot := .idle
  ready : Bool := false
  counters : Counters := {}
  warnDepth : Nat
  armed : Bool := true

namespace Pump

variable {σ : Type}

def defaultWarnDepth : Nat := 256

/-- A pump in front of `sink`. A warning depth of zero counts as one. -/
def new (sink : σ) (warnDepth : Nat) : Pump σ := { sink, warnDepth := max warnDepth 1 }

def drained (p : Pump σ) : Bool := p.backlog.isEmpty && p.slot == .idle

def stats (p : Pump σ) : Stats where
  segmentsReceived := p.counters.segmentsReceived
  bytesReceived := p.counters.bytesReceived
  segmentsAppended := p.counters.segmentsAppended
  bytesAppended := p.counters.bytesAppended
  completions := p.counters.completions
  queueDepth := p.backlog.size
  queuedBytes := p.backlog.bytes
  peakQueueDepth := p.counters.peakDepth
  sinkReady := p.ready
  slot := p.slot

def mapSink (f : σ → σ) (p : Pump σ) : Pump σ := { p with sink := f p.sink }

end Pump
end SegmentPump
