import SegmentPump.Log

/-! How a pump reacts to one event. Any append that the event makes possible
is begun within the same step, and a step begins one append at the most. -/
namespace SegmentPump

inductive Fault
  | pump (error : PumpError)
  | sinkCrashed
  | misuse
  deriving DecidableEq, Repr

structure Step (σ : Type) where
  pump : Pump σ
  result : Except Fault Unit
  notices : List Notice

namespace Step

variable {σ : Type}

def done (pump : Pump σ) : Step σ := { pump, result := .ok (), notices := [] }

def fail (pump : Pump σ) (fault : Fault) : Step σ := { pump, result := .error fault, notices := [] }

def after (earlier : List Notice) (s : Step σ) : Step σ := { s with notices := earlier ++ s.notices }

end Step

namespace Pump

variable {σ : Type} [Sink σ]

/-- The sink took `segment`: the slot is filled, and a backlog that has fallen
below half of the warning depth arms the warning again. -/
def fill (p : Pump σ) (segment : Segment) : Step σ :=
  let counters := { p.counters with
    segmentsAppended := p.counters.segmentsAppended + 1
    bytesAppended := p.counters.bytesAppended + segment.size }
  { pump := { p with
      slot := .inFlight
      counters
      armed := p.armed || decide (p.backlog.size * 2 < p.warnDepth) }
    result := .ok ()
    notices := [.appended counters.segmentsAppended segment.size p.backlog.size] }

def advance (p : Pump σ) : Step σ :=
  if p.ready && p.slot == .idle then
    if p.backlog.isEmpty then .done p
    else
      match p.backlog.pop with
      | (.error error, backlog) => .fail { p with backlog } (.pump (.queue error))
      | (.ok segment, backlog) =>
        match Sink.offer p.sink segment with
        | (.accepted, sink) => fill { p with backlog, sink } segment
        | (.refused refusal, sink) => .fail { p with backlog, sink } (.pump (.sink refusal))
        | (.crashed, sink) => .fail { p with backlog, sink } .sinkCrashed
  else .fail p .misuse

def receive (p : Pump σ) (segment : Segment) : Step σ :=
  let backlog := p.backlog.push segment
  let depth := backlog.size
  let counters := { p.counters with
    segmentsReceived := p.counters.segmentsReceived + 1
    bytesReceived := p.counters.bytesReceived + segment.size
    peakDepth := max p.counters.peakDepth depth }
  let deep := p.armed && decide (p.warnDepth ≤ depth)
  { pump := { p with backlog, counters, armed := p.armed && !deep }
    result := .ok ()
    notices := if deep then [.backingUp depth backlog.bytes p.ready] else [] }

def latch (p : Pump σ) : Step σ :=
  { pump := { p with ready := true }
    result := .ok ()
    notices := if p.ready then [.readinessRepeated] else [.sinkReady p.backlog.size] }

def release (p : Pump σ) : Pump σ :=
  { p with
    slot := .idle
    counters := { p.counters with completions := p.counters.completions + 1 } }

def apply (p : Pump σ) : Event → Step σ
  | .sinkReady =>
    let s := p.latch
    if s.pump.slot = .idle then s.pump.advance.after s.notices else s
  | .arrived segment =>
    let s := p.receive segment
    if s.pump.ready && s.pump.slot == .idle then s.pump.advance.after s.notices else s
  | .completed =>
    match p.slot with
    | .idle => (Step.fail p (.pump .unexpectedCompletion)).after [.completionNeverIssued]
    | .inFlight => p.release.advance

/-- Handles one event to its end. A pump can go on after a failed event, from
the state the failure left it in. -/
def react (p : Pump σ) (event : Event) : Step σ :=
  (p.apply event).after [.handling event.name p.slot p.backlog.size]

end Pump

structure Run (σ : Type) where
  pump : Pump σ
  result : Except Fault Unit := .ok ()
  log : Line Notice := .empty

namespace Run

variable {σ : Type} [Sink σ]

def next (r : Run σ) (event : Event) : Run σ :=
  match r.result with
  | .error _ => r
  | .ok _ =>
    let s := r.pump.react event
    { pump := s.pump, result := s.result, log := r.log.append s.notices }

def repeated (event : Event) : (count : Nat) → Run σ → Run σ
  | 0, r => r
  | count + 1, r =>
    match r.result with
    | .error _ => r
    | .ok _ => repeated event count (r.next event)

end Run

def Pump.feed [Sink σ] (p : Pump σ) (events : List Event) : Run σ :=
  events.foldl Run.next { pump := p }

end SegmentPump
