import SegmentPump.Text.Json

/-! What a pump reports about itself: counters over its life and a picture of
its present state. -/
namespace SegmentPump

inductive Slot
  | idle
  | inFlight
  deriving DecidableEq, Repr, Inhabited

def Slot.name : Slot → String
  | .idle => "Idle"
  | .inFlight => "AppendInFlight"

structure Stats where
  segmentsReceived : Nat := 0
  bytesReceived : Nat := 0
  segmentsAppended : Nat := 0
  bytesAppended : Nat := 0
  completions : Nat := 0
  queueDepth : Nat := 0
  queuedBytes : Nat := 0
  peakQueueDepth : Nat := 0
  sinkReady : Bool := false
  slot : Slot := .idle
  deriving DecidableEq, Repr, Inhabited

namespace Stats

/-- Segments received that the sink has not finished. Counters that do not fit
together give zero. -/
def pending (s : Stats) : Nat := s.segmentsReceived - s.completions

def toJson (s : Stats) : Json :=
  .object [
    ("segments_received", .number s.segmentsReceived),
    ("bytes_received", .number s.bytesReceived),
    ("segments_appended", .number s.segmentsAppended),
    ("bytes_appended", .number s.bytesAppended),
    ("completions", .number s.completions),
    ("queue_depth", .number s.queueDepth),
    ("queued_bytes", .number s.queuedBytes),
    ("peak_queue_depth", .number s.peakQueueDepth),
    ("sink_ready", .boolean s.sinkReady),
    ("state", .string s.slot.name)]

end Stats
end SegmentPump
