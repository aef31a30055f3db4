import SegmentPump.Sink.Signal
import SegmentPump.Sink.Tape

/-! The three sinks of this library under one type, so that a pump can be set
up with whichever one is named. -/
namespace SegmentPump

inductive StockSink
  | script (s : Observed Script)
  | tape (t : Tape)
  | channel (c : Channel)

namespace StockSink

def mapScript (f : Observed Script → Observed Script) : StockSink → StockSink
  | .script s => .script (f s)
  | sink => sink

def mapTape (f : Tape → Tape) : StockSink → StockSink
  | .tape t => .tape (f t)
  | sink => sink

def mapChannel (f : Channel → Channel) : StockSink → StockSink
  | .channel c => .channel (f c)
  | sink => sink

def script? : StockSink → Option (Observed Script)
  | .script s => some s
  | _ => none

def tape? : StockSink → Option Tape
  | .tape t => some t
  | _ => none

def channel? : StockSink → Option Channel
  | .channel c => if c.consumed then some c else none
  | _ => none

end StockSink

instance : Sink StockSink where
  offer
    | .script s, segment => let (reply, s) := Sink.offer s segment; (reply, .script s)
    | .tape t, segment => let (reply, t) := Sink.offer t segment; (reply, .tape t)
    | .channel c, segment => let (reply, c) := Sink.offer c segment; (reply, .channel c)

end SegmentPump
