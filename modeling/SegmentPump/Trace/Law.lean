import SegmentPump.Line
import SegmentPump.Trace
import Std.Data.TreeSet

/-! Four laws of a trace and the checks that decide them. The first three
blame the first event that breaks them; the last one speaks of a whole run and
blames no event. -/
namespace SegmentPump

structure Violation where
  law : String
  description : String
  index : Option Nat
  deriving DecidableEq, Repr

def Violation.message (v : Violation) : String :=
  match v.index with
  | some index => s!"Invariant '{v.law}' violated at event {index}: {v.description}"
  | none => s!"Invariant '{v.law}' violated: {v.description}"

inductive Law
  | ordering
  | singleInFlight
  | readinessGate
  /-- Everything that arrived was appended, and nothing twice. Meant for runs
  that ended with every append completed. -/
  | noLoss
  deriving DecidableEq, Repr

namespace Law

def all : List Law := [.ordering, .singleInFlight, .readinessGate, .noLoss]

def name : Law → String
  | .ordering => "Ordering"
  | .singleInFlight => "SingleInFlight"
  | .readinessGate => "ReadinessGate"
  | .noLoss => "NoLoss"

def blame (law : Law) (index : Nat) (description : String) : Option Violation :=
  some { law := law.name, description, index := some index }

/-- Checks the events from place `index` on; `waiting` are the numbers that have
arrived and were not appended yet. -/
def checkOrdering (index : Nat) (waiting : Line Nat) : Trace → Option Violation
  | [] => none
  | .arrived sequence :: rest => checkOrdering (index + 1) (waiting.push sequence) rest
  | .appended sequence :: rest =>
    match waiting.pop? with
    | none => blame .ordering index s!"appended segment {sequence} before it arrived"
    | some (expected, later) =>
      if expected = sequence then checkOrdering (index + 1) later rest
      else blame .ordering index s!"appended segment {sequence}, expected {expected}"
  | .ready :: rest | .completed :: rest => checkOrdering (index + 1) waiting rest

def checkInFlight (index : Nat) (busy : Bool) : Trace → Option Violation
  | [] => none
  | .appended sequence :: rest =>
    if busy then
      blame .singleInFlight index
        s!"segment {sequence} appended while another append was in flight"
    else checkInFlight (index + 1) true rest
  | .completed :: rest =>
    if busy then checkInFlight (index + 1) false rest
    else blame .singleInFlight index "completion with no append in flight"
  | .arrived _ :: rest | .ready :: rest => checkInFlight (index + 1) busy rest

def checkGate (index : Nat) : Trace → Option Violation
  | [] => none
  | .ready :: _ => none
  | .appended sequence :: _ =>
    blame .readinessGate index s!"segment {sequence} appended before the sink was ready"
  | .arrived _ :: rest | .completed :: rest => checkGate (index + 1) rest

def firstRepeat (seen : Std.TreeSet Nat) : List Nat → Option Nat
  | [] => none
  | n :: rest => if seen.contains n then some n else firstRepeat (seen.insert n) rest

def firstMissing (others : List Nat) (numbers : List Nat) : Option Nat :=
  let present := Std.TreeSet.ofList others
  numbers.find? fun n => !present.contains n

def checkLoss (t : Trace) : Option Violation :=
  match firstRepeat ∅ t.appended with
  | some sequence =>
    some
      { law := noLoss.name, description := s!"segment {sequence} appended more than once",
        index := none }
  | none =>
    match firstMissing t.appended t.arrived with
    | some missing =>
      some
        { law := noLoss.name
          description := s!"segment {missing} never appended " ++
            s!"({t.appended.length} of {t.arrived.length} delivered)"
          index := none }
    | none => none

def check : Law → Trace → Option Violation
  | .ordering, t => checkOrdering 0 .empty t
  | .singleInFlight, t => checkInFlight 0 false t
  | .readinessGate, t => checkGate 0 t
  | .noLoss, t => checkLoss t

end Law

namespace Trace

def violations (t : Trace) : List Violation := Law.all.filterMap (·.check t)

end Trace
end SegmentPump
