import SegmentPump.Session
import SegmentPump.Sink.Signal
import SegmentPump.Sink.Tape

/-! A session between a simulated source and a simulated sink, without time:
who may move is free, and a move is one step of one of the parties. The sink
opens, then takes one segment at a time, and notes the number of each segment it
has accepted. The owner of the session delivers the segments, waits until they are
drained and shuts the session down. -/
namespace SegmentPump

inductive Receiver.Phase
  | opening
  | waiting
  | holding (segment : Segment)
  | stopped
  deriving DecidableEq

structure Receiver where
  phase : Receiver.Phase := .opening
  accepted : Line Nat := .empty
  deriving DecidableEq

namespace Receiver

def accept (r : Receiver) (segment : Segment) : Receiver :=
  { r with accepted := r.accepted.append segment.sequence?.toList }

end Receiver
inductive Owner
  | feeding
  | draining (ticket : Ticket)
  | closing (ticket : Ticket)
  | finished
  | failed (error : SessionError)
  deriving DecidableEq

structure World where
  feed : List Segment
  session : Session Channel
  receiver : Receiver := {}
  owner : Owner := .feeding

inductive Move
  | deliver
  | askDrained
  | askShutdown
  | interrupt
  | conclude
  | serve
  | openSink
  | take
  | accept
  deriving DecidableEq, Repr

namespace World

def new (feed : List Segment) (warnDepth : Nat) : World :=
  { feed, session := (Session.new {} warnDepth).start }

def channel (w : World) : Channel := w.session.worker.pump.sink

def deliver (w : World) : Option World :=
  match w.owner, w.feed with
  | .feeding, segment :: rest =>
    match w.session.send (.arrived segment) with
    | .ok session => some { w with feed := rest, session }
    | .error error => some { w with owner := .failed error }
  | _, _ => none

def ask (w : World) (query : Query) (next : Ticket → Owner) : World :=
  let (ticket, session) := w.session.ask query
  { w with session, owner := next ticket }

def askDrained (w : World) : Option World :=
  match w.owner, w.feed with
  | .feeding, [] => some (w.ask .waitDrained .draining)
  | _, _ => none

def interrupt (w : World) : Option World :=
  match w.owner, w.feed with
  | .feeding, [] => some (w.ask .shutdown .closing)
  | _, _ => none

def askShutdown (w : World) : Option World :=
  match w.owner with
  | .draining ticket =>
    (w.session.outcome ticket).map fun
      | .ok _ => { w with session := w.session.release }.ask .shutdown .closing
      | .error error => { w with owner := .failed error }
  | _ => none

def conclude (w : World) : Option World :=
  match w.owner with
  | .closing ticket =>
    (w.session.outcome ticket).map fun
      | .ok _ => { w with session := w.session.release, owner := .finished }
      | .error error => { w with owner := .failed error }
  | _ => none

def serve (w : World) : Option World :=
  if w.session.isRunning && !w.session.mailbox.isEmpty then
    some { w with session := w.session.serve }
  else none

def report (w : World) (signal : Signal) : World :=
  match w.session.send (.signal signal) with
  | .ok session => { w with session, receiver := { w.receiver with phase := .waiting } }
  | .error _ => { w with receiver := { w.receiver with phase := .stopped } }

def openSink (w : World) : Option World :=
  match w.receiver.phase with
  | .opening => some (w.report (.lifecycle .opened))
  | _ => none

def take (w : World) : Option World :=
  match w.receiver.phase with
  | .waiting =>
    match w.channel.receive w.session.isRunning with
    | (.segment segment, channel) =>
      some { w with
        session := w.session.mapSink fun _ => channel
        receiver := { w.receiver with phase := .holding segment } }
    | (.disconnected, _) => some { w with receiver := { w.receiver with phase := .stopped } }
    | (.empty, _) => none
  | _ => none

def accept (w : World) : Option World :=
  match w.receiver.phase with
  | .holding segment => some ({ w with receiver := w.receiver.accept segment }.report .updateEnd)
  | _ => none

def move? (w : World) : Move → Option World
  | .deliver => w.deliver
  | .askDrained => w.askDrained
  | .askShutdown => w.askShutdown
  | .interrupt => w.interrupt
  | .conclude => w.conclude
  | .serve => w.serve
  | .openSink => w.openSink
  | .take => w.take
  | .accept => w.accept

end World

def Command.work : Command → Nat
  | .arrived _ => 4
  | _ => 1

def Receiver.Phase.work : Receiver.Phase → Nat
  | .opening => 3
  | .waiting => 1
  | .holding _ => 3
  | .stopped => 0

def Owner.work : Owner → Nat
  | .feeding => 5
  | .draining _ => 3
  | .closing _ => 1
  | .finished | .failed _ => 0

/-- What is left to do. Every move leaves less of it, whoever moves, so that it bounds
the number of moves. -/
def World.work (w : World) : Nat :=
  5 * w.feed.length + w.session.mailbox.toList.foldr (fun c left => c.work + left) 0 +
    3 * w.session.worker.pump.backlog.size + 3 * w.channel.pending.size +
    w.receiver.phase.work + w.owner.work

end SegmentPump
