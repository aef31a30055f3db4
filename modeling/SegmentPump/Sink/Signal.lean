import SegmentPump.Pump.Basic
import SegmentPump.Log

/-! What passes between a sink and whoever consumes its segments. A channel brings
each segment to the consumer and refuses once the consumer has gone. Back come raw
signals: opening means readiness to the pump, the end of an update means one
completed append, and any other change of lifecycle is noted but means nothing. -/
namespace SegmentPump

inductive Signal
  | lifecycle (state : Lifecycle)
  | updateEnd
  deriving DecidableEq, Repr

structure Reading where
  event : Option Event
  lifecycle : Lifecycle
  notices : List Notice

def Signal.read (previous : Lifecycle) : Signal → Reading
  | .lifecycle state =>
    { event := if state = .opened then some .sinkReady else none
      lifecycle := state
      notices := if previous = state then [] else [.lifecycleChanged previous state] }
  | .updateEnd => { event := some .completed, lifecycle := previous, notices := [] }

structure Channel where
  pending : Line Segment := .empty
  consumed : Bool := true
  deriving DecidableEq

inductive Received
  | segment (s : Segment)
  | empty
  | disconnected
  deriving DecidableEq

namespace Channel

/-- What the consumer takes next; `feeding` says whether the sending side lives. -/
def receive (c : Channel) (feeding : Bool) : Received × Channel :=
  match c.pending.pop? with
  | some (s, rest) => (.segment s, { c with pending := rest })
  | none => (if feeding then .empty else .disconnected, c)

def abandon (_ : Channel) : Channel := { consumed := false }

end Channel

instance : Sink Channel where
  offer c segment :=
    if c.consumed then (.accepted, { c with pending := c.pending.push segment })
    else (.refused .closed, c)

end SegmentPump
