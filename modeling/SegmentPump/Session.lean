import SegmentPump.Session.Worker

/-! A session: a worker behind a mailbox. Handles put commands into the mailbox
at any time; the worker runs only when it is let, and then until the mailbox is
empty or the session has ended. A session also ends once the mailbox is empty
and nobody holds it. Whatever is in the mailbox at the end is lost. -/
namespace SegmentPump

structure Session (σ : Type) where
  worker : Worker σ
  started : Bool := false
  mailbox : Line Command := .empty
  ending : Option Ending := none
  holders : Nat := 1
  nextTicket : Ticket := 0
  answers : Line (Ticket × Answer) := .empty
  log : Line Notice := .empty

namespace Session

variable {σ : Type}

def new (sink : σ) (warnDepth : Nat) : Session σ := { worker := { pump := .new sink warnDepth } }

def isRunning (s : Session σ) : Bool := s.ending.isNone

def mapSink (f : σ → σ) (s : Session σ) : Session σ :=
  { s with worker := { s.worker with pump := s.worker.pump.mapSink f } }

def send (s : Session σ) (c : Command) : Except SessionError (Session σ) :=
  match s.ending with
  | none => .ok { s with mailbox := s.mailbox.push c }
  | some _ => .error .closed

def sendRepeated (c : Command) : (count : Nat) → Session σ → Except SessionError Unit × Session σ
  | 0, s => (.ok (), s)
  | count + 1, s =>
    match s.send c with
    | .ok s => sendRepeated c count s
    | .error error => (.error error, s)

def tell (s : Session σ) (c : Command) : Session σ :=
  match s.send c with
  | .ok s => s
  | .error _ => s

def retain (s : Session σ) : Session σ := { s with holders := s.holders + 1 }

def release (s : Session σ) : Session σ := { s with holders := s.holders - 1 }

/-- Makes a call. The call holds the session until it is given up. -/
def ask (s : Session σ) (q : Query) : Ticket × Session σ :=
  let ticket := s.nextTicket
  let held := { s.retain with nextTicket := ticket + 1 }
  match held.send (.query ticket q) with
  | .ok asked => (ticket, asked)
  | .error _ => (ticket, held)

/-- What has become of a call: an answer, a refusal once the session has ended
without one, or nothing yet. -/
def outcome (s : Session σ) (ticket : Ticket) : Option (Except SessionError Answer) :=
  match s.answers.toList.lookup ticket with
  | some answer => some (.ok answer)
  | none => if s.isRunning then none else some (.error .closed)

def join (s : Session σ) : Option (Except SessionError Stats) := s.ending.map Ending.outcome

/-- Takes over what a turn of the worker brought about. An ending empties the
mailbox. -/
def absorb (s : Session σ) (t : Turn σ) : Session σ :=
  { s with
    worker := t.worker
    ending := t.ending
    mailbox := if t.ending.isSome then .empty else s.mailbox
    answers := s.answers.append t.answers
    log := s.log.append t.notices }

def start (s : Session σ) : Session σ :=
  if s.started then s else { s with started := true, log := s.log.push .sessionStarted }

def retire (s : Session σ) : Session σ :=
  if s.isRunning && s.holders == 0 && s.mailbox.isEmpty then s.absorb s.worker.stop else s

variable [Sink σ]

def serve (s : Session σ) : Session σ :=
  match s.ending, s.mailbox.pop? with
  | none, some (c, rest) => { s with mailbox := rest }.absorb (s.worker.handle c)
  | _, _ => s

def serveAll : Nat → Session σ → Session σ
  | 0, s => s
  | count + 1, s => s.serve.serveAll count

def settle (s : Session σ) : Session σ :=
  let s := s.start
  (s.serveAll s.mailbox.size).retire

end Session
end SegmentPump
