import SegmentPump.Pump.React
import SegmentPump.Session.Command

/-! The worker of a session owns the pump and handles one command at a time.
Callers that wait for the pump to drain are answered after the first command
that leaves it drained. -/
namespace SegmentPump

structure Worker (σ : Type) where
  pump : Pump σ
  lifecycle : Lifecycle := .closed
  waiters : List Ticket := []

structure Turn (σ : Type) where
  worker : Worker σ
  ending : Option Ending := none
  answers : List (Ticket × Answer) := []
  notices : List Notice := []

namespace Worker

variable {σ : Type}

/-- The end of a session that met no failure. The waiters stay unanswered. -/
def stop (w : Worker σ) : Turn σ :=
  let stats := w.pump.stats
  { worker := w, ending := some (.stopped stats)
    notices := [.sessionStopped stats.segmentsAppended stats.queueDepth] }

/-- The end of a command that neither failed nor stopped the session: if the
pump is drained, every waiter is told. -/
def carryOn (w : Worker σ) (answers : List (Ticket × Answer)) (notices : List Notice) : Turn σ :=
  if w.pump.drained then
    { worker := { w with waiters := [] }
      answers := answers ++ w.waiters.map fun ticket => (ticket, .stats w.pump.stats)
      notices }
  else { worker := w, answers, notices }

variable [Sink σ]

def pass (w : Worker σ) (event : Event) (earlier : List Notice) : Turn σ :=
  let s := w.pump.react event
  let w := { w with pump := s.pump }
  let notices := earlier ++ s.notices
  match s.result with
  | .ok _ => w.carryOn [] notices
  | .error (.pump error) =>
    { worker := w, ending := some (.failed error), notices := notices ++ [.sessionFailed error] }
  | .error _ => { worker := w, ending := some .crashed, notices }

def handle (w : Worker σ) : Command → Turn σ
  | .arrived segment => w.pass (.arrived segment) []
  | .signal signal =>
    let reading := signal.read w.lifecycle
    let w := { w with lifecycle := reading.lifecycle }
    match reading.event with
    | some event => w.pass event reading.notices
    | none => w.carryOn [] reading.notices
  | .query ticket .stats => w.carryOn [(ticket, .stats w.pump.stats)] []
  | .query ticket .waitDrained => { w with waiters := w.waiters ++ [ticket] }.carryOn [] []
  | .query ticket .shutdown =>
    let turn := w.stop
    { turn with answers := [(ticket, .done)], notices := .sessionShuttingDown :: turn.notices }

end Worker
end SegmentPump
