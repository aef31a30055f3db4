import SegmentPump.Sink.Signal

/-! What can be put into the mailbox of a session, and what a caller can get
back. A ticket names one call, so that its answer can be found again. -/
namespace SegmentPump

abbrev Ticket := Nat

inductive Query
  | stats
  | waitDrained
  | shutdown
  deriving DecidableEq, Repr

inductive Command
  | arrived (segment : Segment)
  | signal (signal : Signal)
  | query (ticket : Ticket) (query : Query)
  deriving DecidableEq

inductive Answer
  | stats (stats : Stats)
  | done
  deriving DecidableEq, Repr

inductive SessionError
  | pump (error : PumpError)
  | closed
  | taskFailed (reason : String)
  deriving DecidableEq, Repr

def SessionError.message : SessionError → String
  | .pump error => s!"Session terminated: {error.message}"
  | .closed => "Session closed"
  | .taskFailed reason => s!"Session task failed: {reason}"

inductive Ending
  | stopped (stats : Stats)
  | failed (error : PumpError)
  | crashed
  deriving DecidableEq, Repr

def Ending.outcome : Ending → Except SessionError Stats
  | .stopped stats => .ok stats
  | .failed error => .error (.pump error)
  | .crashed => .error (.taskFailed "sink broke down")

end SegmentPump
