import SegmentPump.Sink
import SegmentPump.Trace

/-! A sink with a single slot that records what it takes on a trace. It refuses
a segment while another is under way, and a segment too short to carry a
sequence header. -/
namespace SegmentPump

def Segment.sequence? (s : Segment) : Option Nat :=
  if s.size < Header.size then none
  else some (Header.read (s.bytes.extract 0 Header.size).data.toList)

structure Tape where
  events : Line TraceEvent := .empty
  busy : Bool := false
  payloads : Line Segment := .empty
  deriving DecidableEq

namespace Tape

def trace (t : Tape) : Trace := t.events.toList

def record (event : TraceEvent) (t : Tape) : Tape := { t with events := t.events.push event }

/-- Ends the append under way. The completion is recorded even when there was
none; the answer says whether there was one. -/
def complete (t : Tape) : Bool × Tape := (t.busy, { t.record .completed with busy := false })

end Tape

instance : Sink Tape where
  offer t segment :=
    if t.busy then (.refused .invalidState, t)
    else
      match segment.sequence? with
      | none => (.refused .invalidState, t)
      | some sequence =>
        (.accepted, { t.record (.appended sequence) with
          busy := true, payloads := t.payloads.push segment })

end SegmentPump
