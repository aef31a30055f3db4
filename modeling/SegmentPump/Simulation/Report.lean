import SegmentPump.Settings
import SegmentPump.Simulation.Clock
import SegmentPump.Simulation.Source

/-! The outcome of a simulated session, and the simulation that settings
describe. -/
namespace SegmentPump

structure Report where
  seed : UInt64
  stats : Stats
  accepted : List Nat
  elapsed : Nat
  deriving DecidableEq, Repr

namespace Report

def deliveredInOrder (r : Report) : Bool :=
  r.accepted.length == r.stats.segmentsReceived && r.accepted == List.range r.accepted.length

def nanosPerSecond : Nat := 1000000000

def toJson (r : Report) : Json :=
  .object [
    ("seed", .number r.seed.toNat),
    ("stats", r.stats.toJson),
    ("accepted", .array (r.accepted.map .number)),
    ("elapsed", .object [
      ("secs", .number (r.elapsed / nanosPerSecond)),
      ("nanos", .number (r.elapsed % nanosPerSecond))])]

end Report

def nanosPerMilli : Nat := 1000000

namespace Settings

def timing (s : Settings) : Timing :=
  { openDelay := s.sinkOpenDelay.toNat, latency := s.appendLatency.toNat
    interval := s.segmentInterval.toNat }

def source (s : Settings) (generator : Generator) : Source := { sizes := s.sizes, generator }

def segments (s : Settings) (generator : Generator) : Except SizeOverflow (List Segment) :=
  (s.source generator).segments s.segmentCount.toNat

def judge (seed : UInt64) (c : Clock) (w : World) : Except SimulationError Report :=
  match w.owner with
  | .failed error => .error (.session error)
  | .finished =>
    match w.session.join with
    | some (.ok stats) =>
      .ok { seed, stats, accepted := w.receiver.accepted.toList, elapsed := c.now * nanosPerMilli }
    | some (.error error) => .error (.session error)
    | none => .error (.taskFailed "session still runs")
  | _ => .error (.taskFailed "session owner still waits")

def simulate (s : Settings) (drawn : UInt64) : Except SimulationFailure (Report × List Notice) :=
  match s.validate with
  | .error failure => .error (.error (.invalidConfiguration failure.message))
  | .ok _ =>
    let seed := s.seed.getD drawn
    match s.segments (.ofSeed seed) with
    | .error overflow => .error (.size overflow)
    | .ok segments =>
      let (c, w) := s.timing.run (.new segments s.queueWarnDepth.toNat)
      match judge seed c w with
      | .ok report => .ok (report, w.session.log.toList)
      | .error error => .error (.error error)

end Settings

def Receiver.trial (s : Settings) (payloads : List Segment) (patience : Nat) : World :=
  let timing := { s.timing with interval := 0, patience := some patience }
  (timing.run (.new payloads s.queueWarnDepth.toNat)).2

end SegmentPump
