import SegmentPump.Pump.Basic

/-! The log as data. Every notice has a level, a message and named fields;
which of them are shown is decided by a level alone. -/
namespace SegmentPump

inductive Level
  | error
  | warn
  | info
  | debug
  | trace
  deriving DecidableEq, Repr

namespace Level

def all : List Level := [.error, .warn, .info, .debug, .trace]

def keyword : Level → String
  | .error => "error"
  | .warn => "warn"
  | .info => "info"
  | .debug => "debug"
  | .trace => "trace"

def name : Level → String
  | .error => "Error"
  | .warn => "Warn"
  | .info => "Info"
  | .debug => "Debug"
  | .trace => "Trace"

def label : Level → String
  | .error => "ERROR"
  | .warn => "WARN"
  | .info => "INFO"
  | .debug => "DEBUG"
  | .trace => "TRACE"

def rank : Level → Nat
  | .error => 0
  | .warn => 1
  | .info => 2
  | .debug => 3
  | .trace => 4

/-- The level whose keyword is `text`; only the case of ASCII letters can be
ignored. -/
def parse? (text : String) (ignoreCase : Bool) : Option Level :=
  all.find? fun level =>
    if ignoreCase then text.toLower == level.keyword else text == level.keyword

end Level

inductive Lifecycle
  | closed
  | opened
  | ended
  deriving DecidableEq, Repr, Inhabited

def Lifecycle.name : Lifecycle → String
  | .closed => "Closed"
  | .opened => "Open"
  | .ended => "Ended"

inductive Notice
  | handling (event : String) (slot : Slot) (queued : Nat)
  | readinessRepeated
  | sinkReady (queued : Nat)
  | completionNeverIssued
  | appended (sequence bytes remaining : Nat)
  | backingUp (depth queuedBytes : Nat) (ready : Bool)
  | lifecycleChanged (previous current : Lifecycle)
  | sessionStarted
  | sessionShuttingDown
  | sessionStopped (segments discarded : Nat)
  | sessionFailed (error : PumpError)
  | interleavingFinished (seed : UInt64) (events violations : Nat)
  deriving DecidableEq, Repr

inductive Field
  | number (n : Nat)
  | boolean (b : Bool)
  | text (s : String)
  deriving DecidableEq, Repr

namespace Notice

def level : Notice → Level
  | .handling .. | .readinessRepeated => .trace
  | .appended .. | .lifecycleChanged .. | .sessionStarted | .sessionShuttingDown
  | .sessionStopped .. | .interleavingFinished .. => .debug
  | .sinkReady .. => .info
  | .completionNeverIssued | .backingUp .. => .warn
  | .sessionFailed .. => .error

def message : Notice → String
  | .handling .. => "Handling pump event"
  | .readinessRepeated => "Duplicate sink readiness ignored"
  | .sinkReady .. => "Sink ready"
  | .completionNeverIssued => "Sink completed an append that was never issued"
  | .appended .. => "Appended segment"
  | .backingUp .. => "Segment queue is backing up"
  | .lifecycleChanged .. => "Sink ready state changed"
  | .sessionStarted => "Session actor started"
  | .sessionShuttingDown => "Session actor shutting down"
  | .sessionStopped .. => "Session actor stopped"
  | .sessionFailed .. => "Session terminated by pump error"
  | .interleavingFinished .. => "Interleaving scenario finished"

def fields : Notice → List (String × Field)
  | .handling event slot queued =>
    [("event", .text event), ("state", .text slot.name), ("queued", .number queued)]
  | .sinkReady queued => [("queued", .number queued)]
  | .appended sequence bytes remaining =>
    [("sequence", .number sequence), ("bytes", .number bytes), ("remaining", .number remaining)]
  | .backingUp depth queuedBytes ready =>
    [("depth", .number depth), ("queued_bytes", .number queuedBytes),
      ("sink_ready", .boolean ready)]
  | .lifecycleChanged previous current =>
    [("previous", .text previous.name), ("current", .text current.name)]
  | .sessionStopped segments discarded =>
    [("appended", .number segments), ("discarded", .number discarded)]
  | .sessionFailed error => [("error", .text error.message)]
  | .interleavingFinished seed events violations =>
    [("seed", .number seed.toNat), ("events", .number events), ("violations", .number violations)]
  | .readinessRepeated | .completionNeverIssued | .sessionStarted | .sessionShuttingDown => []

def shownAt (threshold : Level) (n : Notice) : Bool := n.level.rank ≤ threshold.rank

end Notice
end SegmentPump
