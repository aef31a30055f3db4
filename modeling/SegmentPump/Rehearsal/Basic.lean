import SegmentPump.Generator.Payload
import SegmentPump.Pump.React
import SegmentPump.Sink.Tape
import SegmentPump.Trace.Law

/-! A rehearsal plays source and sink for a pump whose sink is a tape. Each of
its three moves is written on the tape just before the pump hears of it. -/
namespace SegmentPump

structure Rehearsal where
  pump : Pump Tape
  generator : Generator
  next : Nat := 0
  readySent : Bool := false
  log : Line Notice := .empty

inductive RehearsalFailure
  | size (overflow : SizeOverflow)
  | fault (fault : Fault)
  | idleCompletion
  | leftover
  | unfinished
  deriving DecidableEq, Repr

namespace Rehearsal

def new (generator : Generator) (warnDepth : Nat) : Rehearsal :=
  { pump := .new {} warnDepth, generator }

def trace (r : Rehearsal) : Trace := r.pump.sink.trace

def busy (r : Rehearsal) : Bool := r.pump.sink.busy

def play (r : Rehearsal) (mark : Tape → Tape) (event : Event) : Except RehearsalFailure Rehearsal :=
  let s := (r.pump.mapSink mark).react event
  match s.result with
  | .ok _ => .ok { r with pump := s.pump, log := r.log.append s.notices }
  | .error fault => .error (.fault fault)

def arrive (r : Rehearsal) (segment : Segment) : Except RehearsalFailure Rehearsal :=
  { r with next := r.next + 1 }.play (Tape.record (.arrived r.next)) (.arrived segment)

def ready (r : Rehearsal) : Except RehearsalFailure Rehearsal :=
  { r with readySent := true }.play (Tape.record .ready) .sinkReady

def complete (r : Rehearsal) : Except RehearsalFailure Rehearsal :=
  r.play (fun tape => tape.complete.2) .completed

end Rehearsal
end SegmentPump
