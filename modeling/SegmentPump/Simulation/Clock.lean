import SegmentPump.Simulation.World

/-! Virtual time for a simulated session, counted in milliseconds. Time stands still
while anybody can move, and then goes on to the next instant at which something is
due. -/
namespace SegmentPump

/-- Thirty years of 365 days. Nobody waits longer than this at a time, however
long the delay that was asked for. -/
def longestWait : Nat := 30 * 365 * 24 * 60 * 60 * 1000

def waitEnd (now delay : Nat) : Nat := now + min delay longestWait

structure Timing where
  openDelay : Nat
  latency : Nat
  interval : Nat
  patience : Option Nat := none
  deriving DecidableEq, Repr

structure Clock where
  now : Nat := 0
  deliveryDue : Nat
  receiverDue : Nat
  deriving DecidableEq, Repr

namespace Timing

def start (t : Timing) : Clock :=
  { deliveryDue := waitEnd 0 t.interval, receiverDue := waitEnd 0 t.openDelay }

def shutdownDue (t : Timing) : Option Nat := t.patience.map (waitEnd 0)

def tick (t : Timing) (c : Clock) : Move → Clock
  | .deliver => { c with deliveryDue := waitEnd c.now t.interval }
  | .take => { c with receiverDue := waitEnd c.now t.latency }
  | _ => c

def firstPossible (w : World) : List Move → Option (Move × World)
  | [] => none
  | m :: rest =>
    match w.move? m with
    | some after => some (m, after)
    | none => firstPossible w rest

def closingMoves (t : Timing) (now : Nat) : List Move :=
  match t.shutdownDue with
  | none => [.askDrained]
  | some instant => if instant ≤ now then [.interrupt] else []

/-- The moves that are due at an instant, the most pressing first: the source
and the owner before the session, the session before the sink, and the owner's
reactions last. -/
def dueMoves (t : Timing) (c : Clock) : List Move :=
  (if c.deliveryDue ≤ c.now then [.deliver] else []) ++ t.closingMoves c.now ++ [.serve, .take] ++
    (if c.receiverDue ≤ c.now then [.openSink, .accept] else []) ++ [.askShutdown, .conclude]

def instants (t : Timing) (c : Clock) (w : World) : List Nat :=
  (match w.owner, w.feed, t.shutdownDue with
    | .feeding, _ :: _, _ => [c.deliveryDue]
    | .feeding, [], some instant => [instant]
    | _, _, _ => []) ++
  (match w.receiver.phase with
    | .opening | .holding _ => [c.receiverDue]
    | _ => [])

def next (t : Timing) (c : Clock) (w : World) : Option (Clock × World) :=
  let at? (c : Clock) : Option (Clock × World) :=
    (firstPossible w (t.dueMoves c)).map fun (m, after) => (t.tick c m, after)
  match at? c with
  | some moved => some moved
  | none =>
    match (t.instants c w).min? with
    | some instant => at? { c with now := max c.now instant }
    | none => none

def runFor (t : Timing) : Nat → Clock → World → Clock × World
  | 0, c, w => (c, w)
  | count + 1, c, w =>
    match t.next c w with
    | some (c, w) => t.runFor count c w
    | none => (c, w)

def run (t : Timing) (w : World) : Clock × World := t.runFor w.work t.start w

end Timing
end SegmentPump
