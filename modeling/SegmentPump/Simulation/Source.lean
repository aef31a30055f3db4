import SegmentPump.Failure
import SegmentPump.Simulation.Clock

/-! The simulated source: numbered segments of random size, one after each
interval. What it sends depends on the seed, the count and the sizes, and not
on time. A segment is drawn only when it is to be sent. -/
namespace SegmentPump

structure Source where
  sizes : SizeRange
  next : Nat := 0
  generator : Generator

namespace Source

def emit (s : Source) : Except SizeOverflow (Segment × Source) :=
  match s.sizes.segment s.next s.generator with
  | .error overflow => .error overflow
  | .ok (segment, generator) => .ok (segment, { s with next := s.next + 1, generator })

def emitOnto (sent : Line Segment) : (count : Nat) → Source → Except SizeOverflow (Line Segment)
  | 0, _ => .ok sent
  | count + 1, s =>
    match s.emit with
    | .error overflow => .error overflow
    | .ok (segment, s) => emitOnto (sent.push segment) count s

def segments (count : Nat) (s : Source) : Except SizeOverflow (List Segment) :=
  (emitOnto .empty count s).map Line.toList

structure Delivery where
  sent : Except SimulationError Nat
  elapsed : Nat
  session : Session Channel

/-- Sends `count` more segments to a session, waiting for `interval` before each
and letting the session run meanwhile. It gives up when the session refuses
one. -/
def deliver (interval : Nat) : (count : Nat) → Source → Delivery → Except SizeOverflow Delivery
  | 0, _, d => .ok d
  | count + 1, s, d =>
    match s.emit with
    | .error overflow => .error overflow
    | .ok (segment, s) =>
      let elapsed := waitEnd d.elapsed interval
      let session := if interval = 0 then d.session else d.session.settle
      match session.send (.arrived segment) with
      | .ok session =>
        deliver interval count s { sent := d.sent.map (· + segment.size), elapsed, session }
      | .error error => .ok { sent := .error (.session error), elapsed, session }

end Source

namespace Session

def consumeOnto (taken : Line Segment) : (count : Nat) → Session Channel →
    Line Segment × Session Channel
  | 0, s => (taken, s.settle)
  | count + 1, s =>
    let s := s.settle
    match s.worker.pump.sink.receive s.isRunning with
    | (.segment segment, channel) =>
      consumeOnto (taken.push segment) count ((s.mapSink fun _ => channel).tell (.signal .updateEnd))
    | _ => (taken, s)

end Session

namespace Source

structure Trial where
  sent : Except SimulationError Nat
  elapsed : Nat
  taken : List Segment
  session : Session Channel

def trial (interval count : Nat) (s : Source) (session : Session Channel) :
    Except SizeOverflow Trial :=
  match deliver interval count s { sent := .ok 0, elapsed := 0, session } with
  | .error overflow => .error overflow
  | .ok d =>
    let session := d.session.tell (.signal (.lifecycle .opened))
    let (taken, session) := session.consumeOnto .empty (count + 1)
    .ok
      { sent := d.sent, elapsed := d.elapsed, taken := taken.toList
        session := session.release.settle }

end Source
end SegmentPump
