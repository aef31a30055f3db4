import SegmentPump.Backlog

/-! What the operations of a backlog do to the list of segments in it. The
running count of bytes is exact: it is the size of what waits. -/
namespace SegmentPump.Backlog

def toList (q : Backlog) : List Segment := q.segments.toList

def Exact (q : Backlog) : Prop := q.bytes = totalSize q.toList

@[simp] theorem toListEmpty : empty.toList = [] := rfl

@[simp] theorem toListPush (q : Backlog) (s : Segment) : (q.push s).toList = q.toList ++ [s] := by
  simp [toList, push]

theorem sizeToList (q : Backlog) : q.size = q.toList.length := q.segments.sizeToList

theorem isEmptyToList (q : Backlog) : q.isEmpty = q.toList.isEmpty := by
  rw [isEmpty, Line.isEmpty, Line.sizeToList, toList]
  cases q.segments.toList <;> rfl

theorem ext {q r : Backlog} (contents : q.toList = r.toList) (bytes : q.bytes = r.bytes) :
    q = r := by
  cases q
  cases r
  cases Line.ext contents
  cases bytes
  rfl

/- The line is a quotient, so that a head can only be read off its contents. -/
theorem popCons {q : Backlog} {s : Segment} {rest : List Segment} (head : q.toList = s :: rest) :
    q.pop = (.ok s, { segments := .ofList rest, bytes := q.bytes - s.size }) := by
  have line : q.segments = .ofList (s :: rest) := Line.ext (by simpa [toList] using head)
  simp [pop, line]

theorem popNil {q : Backlog} (empty : q.toList = []) : q.pop = (.error .empty, q) := by
  have line : q.segments = .ofList [] := Line.ext (by simpa [toList] using empty)
  simp [pop, line]

theorem popTook {q rest : Backlog} {s : Segment} (popped : q.pop = (.ok s, rest)) :
    q.toList = s :: rest.toList := by
  cases contents : q.toList with
  | nil =>
    rw [popNil contents] at popped
    cases popped
  | cons first line =>
    rw [popCons contents] at popped
    cases popped
    simp [toList]

theorem popFailed {q rest : Backlog} {error : BacklogError} (popped : q.pop = (.error error, rest)) :
    q.toList = [] ∧ rest = q := by
  cases contents : q.toList with
  | nil =>
    rw [popNil contents] at popped
    cases popped
    exact ⟨rfl, rfl⟩
  | cons first line =>
    rw [popCons contents] at popped
    cases popped

theorem exactEmpty : empty.Exact := rfl

theorem exactPush {q : Backlog} (exact : q.Exact) (s : Segment) : (q.push s).Exact := by
  simp [Exact, push, toList] at *
  omega

theorem exactRest {q : Backlog} {s : Segment} {rest : List Segment} (exact : q.Exact)
    (head : q.toList = s :: rest) :
    Exact { segments := .ofList rest, bytes := q.bytes - s.size } := by
  simp only [Exact, head, totalSizeCons] at exact
  simp [Exact, toList, exact]

theorem exactPop {q : Backlog} (exact : q.Exact) : q.pop.2.Exact := by
  cases contents : q.toList with
  | nil =>
    rw [popNil contents]
    exact exact
  | cons first line =>
    rw [popCons contents]
    exact exactRest exact contents

theorem popBytes {q rest : Backlog} {s : Segment} (exact : q.Exact) (popped : q.pop = (.ok s, rest)) :
    rest.bytes + s.size = q.bytes := by
  have left : rest.bytes = totalSize rest.toList := by
    have kept := exactPop exact
    rwa [popped] at kept
  calc rest.bytes + s.size
    _ = s.size + totalSize rest.toList := by rw [left, Nat.add_comm]
    _ = totalSize q.toList := by rw [popTook popped, totalSizeCons]
    _ = q.bytes := exact.symm

end SegmentPump.Backlog
