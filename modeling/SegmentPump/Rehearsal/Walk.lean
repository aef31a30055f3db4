import SegmentPump.Rehearsal.Basic

/-! Interleavings chosen by bytes: each byte picks one of the legal moves. When
the bytes are used up, or nothing is legal, the run is brought to its end:
everything still to arrive arrives, readiness is sent if it never was, and
appends are completed until none is under way. -/
namespace SegmentPump

structure Walk where
  segmentCount : Nat
  repeatReady : Bool
  deriving DecidableEq, Repr

namespace Walk

inductive Move
  | arrive
  | ready
  | complete
  deriving DecidableEq, Repr

def payloadSize : Nat := 16

def legal (w : Walk) (r : Rehearsal) : List Move :=
  (if r.next < w.segmentCount then [.arrive] else []) ++
    (if r.readySent then [] else [.ready]) ++ (if r.busy then [.complete] else [])

def signalReady : Nat → Rehearsal → Except RehearsalFailure Rehearsal
  | 0, r => .ok r
  | times + 1, r =>
    match r.ready with
    | .ok r => signalReady times r
    | .error failure => .error failure

def perform (w : Walk) (r : Rehearsal) : Move → Except RehearsalFailure Rehearsal
  | .arrive =>
    let (segment, generator) := Segment.simulated r.next payloadSize r.generator
    { r with generator }.arrive segment
  | .ready => signalReady (if w.repeatReady then 3 else 1) r
  | .complete => if r.busy then r.complete else .error .idleCompletion

def pick (w : Walk) (r : Rehearsal) (choice : UInt8) : Option Move :=
  let moves := w.legal r
  moves[choice.toNat % moves.length]?

def follow (w : Walk) : List UInt8 → Rehearsal → Except RehearsalFailure Rehearsal
  | [], r => .ok r
  | choice :: rest, r =>
    match w.pick r choice with
    | none => .ok r
    | some move =>
      match w.perform r move with
      | .ok r => w.follow rest r
      | .error failure => .error failure

def arriveAll (w : Walk) : Nat → Rehearsal → Except RehearsalFailure Rehearsal
  | 0, r => .ok r
  | count + 1, r =>
    match w.perform r .arrive with
    | .ok r => w.arriveAll count r
    | .error failure => .error failure

def completeAll (w : Walk) : Nat → Rehearsal → Except RehearsalFailure Rehearsal
  | count, r =>
    if r.busy then
      match count with
      | 0 => .error .unfinished
      | count + 1 =>
        match w.perform r .complete with
        | .ok r => w.completeAll count r
        | .error failure => .error failure
    else .ok r

def finish (w : Walk) (r : Rehearsal) : Except RehearsalFailure Rehearsal := do
  let r ← w.arriveAll (w.segmentCount - r.next) r
  let r ← if r.readySent then .ok r else w.perform r .ready
  let r ← w.completeAll (r.pump.backlog.size + 1) r
  if r.pump.backlog.isEmpty then .ok r else .error .leftover

def start : Rehearsal := .new (.ofSeed 0) Pump.defaultWarnDepth

def run (w : Walk) (choices : List UInt8) : Except RehearsalFailure Trace := do
  let r ← w.follow choices start
  let r ← w.finish r
  .ok r.trace

def deliversInOrder (segmentCount : Nat) (choices : List UInt8) : Except RehearsalFailure Bool := do
  let trace ← run { segmentCount, repeatReady := false } choices
  .ok (trace.violations.isEmpty && trace.appended == List.range segmentCount)

def repeatsUnobserved (segmentCount : Nat) (choices : List UInt8) :
    Except RehearsalFailure Bool := do
  let once ← run { segmentCount, repeatReady := false } choices
  let thrice ← run { segmentCount, repeatReady := true } choices
  .ok (once.withoutReady == thrice.withoutReady)

end Walk
end SegmentPump
