import SegmentPump.Generator.Payload
import SegmentPump.Pump.React
import SegmentPump.Session.Command

/-! Errors that leave the library: one type for everything that a caller of
pumps and sessions can meet, and one for simulations. -/
namespace SegmentPump

inductive Failure
  | pump (error : PumpError)
  | session (error : SessionError)
  | sink (refusal : Refusal)
  | configuration (reason : String)
  | io (reason : String)
  deriving DecidableEq, Repr

namespace Failure

def message : Failure → String
  | .pump error => s!"Pump error: {error.message}"
  | .session error => s!"Session error: {error.message}"
  | .sink refusal => s!"Sink error: {refusal.message}"
  | .configuration reason => s!"Configuration error: {reason}"
  | .io reason => s!"I/O error: {reason}"

def pumpUserMessage : PumpError → String
  | .unexpectedCompletion => "Media sink reported a completion that was never requested"
  | .sink refusal => s!"Media sink rejected a segment: {refusal.message}"
  | .queue _ => "Internal segment queue error"

/-- What a user is told. A session that ended on a pump error reads like the
pump error itself. -/
def userMessage : Failure → String
  | .pump error | .session (.pump error) => pumpUserMessage error
  | .session _ => "Streaming session is no longer running"
  | .sink refusal => s!"Media sink error: {refusal.message}"
  | .configuration reason => s!"Invalid configuration: {reason}"
  | .io _ => "File system error occurred"

def isProtocolViolation : Failure → Bool
  | .pump error | .session (.pump error) => error.isProtocolViolation
  | _ => false

end Failure

inductive SimulationError
  | pump (error : PumpError)
  | session (error : SessionError)
  | invalidConfiguration (reason : String)
  | taskFailed (reason : String)
  deriving DecidableEq, Repr

namespace SimulationError

def message : SimulationError → String
  | .pump error => s!"Pump error: {error.message}"
  | .session error => s!"Session error: {error.message}"
  | .invalidConfiguration reason => s!"Invalid simulation configuration: {reason}"
  | .taskFailed reason => s!"Simulation task failed: {reason}"

def pumpCauses (error : PumpError) : List String :=
  error.message ::
    match error with
    | .queue inner => [inner.message]
    | .sink refusal => [refusal.message]
    | .unexpectedCompletion => []

def causes : SimulationError → List String
  | .pump error => pumpCauses error
  | .session (.pump error) => (SessionError.pump error).message :: pumpCauses error
  | .session error => [error.message]
  | .invalidConfiguration _ | .taskFailed _ => []

end SimulationError

inductive SimulationFailure
  | error (error : SimulationError)
  | size (overflow : SizeOverflow)
  deriving DecidableEq, Repr

end SegmentPump
