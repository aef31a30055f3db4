/-! The record of one run: arrivals and appends by sequence number, readiness
signals and completions, in the order in which they happened. -/
namespace SegmentPump

inductive TraceEvent
  | arrived (sequence : Nat)
  | ready
  | appended (sequence : Nat)
  | completed
  deriving DecidableEq, Repr

namespace TraceEvent

def describe : TraceEvent → String
  | .arrived sequence => s!"Arrived({sequence})"
  | .ready => "Ready"
  | .appended sequence => s!"Appended({sequence})"
  | .completed => "Completed"

def arrived? : TraceEvent → Option Nat
  | .arrived sequence => some sequence
  | _ => none

def appended? : TraceEvent → Option Nat
  | .appended sequence => some sequence
  | _ => none

end TraceEvent

abbrev Trace := List TraceEvent

namespace Trace

def arrived (t : Trace) : List Nat := t.filterMap TraceEvent.arrived?

def appended (t : Trace) : List Nat := t.filterMap TraceEvent.appended?

def withoutReady (t : Trace) : Trace := t.filter (· ≠ .ready)

end Trace
end SegmentPump
