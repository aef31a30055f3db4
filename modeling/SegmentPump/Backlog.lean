import SegmentPump.Line
import SegmentPump.Segment

/-! The line of segments that wait for the sink: first in, first out, with a
running count of its bytes. -/
namespace SegmentPump

inductive BacklogError
  | empty
  deriving DecidableEq, Repr

def BacklogError.message : BacklogError → String
  | .empty => "Segment queue is empty"

structure Backlog where
  segments : Line Segment := .empty
  bytes : Nat := 0
  deriving DecidableEq, Inhabited

namespace Backlog

def empty : Backlog := {}

def size (q : Backlog) : Nat := q.segments.size

def isEmpty (q : Backlog) : Bool := q.segments.isEmpty

def push (q : Backlog) (s : Segment) : Backlog :=
  { segments := q.segments.push s, bytes := q.bytes + s.size }

/-- Takes the segment that has waited longest. With nobody waiting the line
stays as it is. -/
def pop (q : Backlog) : Except BacklogError Segment × Backlog :=
  match q.segments.pop? with
  | none => (.error .empty, q)
  | some (s, rest) => (.ok s, { segments := rest, bytes := q.bytes - s.size })

end Backlog
end SegmentPump
