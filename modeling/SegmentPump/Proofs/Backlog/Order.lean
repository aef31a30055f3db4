import SegmentPump.Proofs.Backlog

/-! A backlog over a course of operations, in which every push and every pop may come
at any point, pops with nobody waiting among them. What has left is what joined first,
and the running count is the size of what waits. The count is a number without a bound
here; as long as everything that joins fits in a word, so does the count at every point,
and nothing is cut off at zero on the way. -/
namespace SegmentPump.Backlog

inductive Operation
  | push (segment : Segment)
  | pop
  deriving DecidableEq

def Operation.pushed : Operation → List Segment
  | .push segment => [segment]
  | .pop => []

def pushed (operations : List Operation) : List Segment := operations.flatMap Operation.pushed

theorem pushedCons (o : Operation) (rest : List Operation) :
    pushed (o :: rest) = o.pushed ++ pushed rest := List.flatMap_cons

theorem pushedAppend (earlier later : List Operation) :
    pushed (earlier ++ later) = pushed earlier ++ pushed later := List.flatMap_append

def perform (q : Backlog) : Operation → Backlog
  | .push segment => q.push segment
  | .pop => q.pop.2

def yields (q : Backlog) : Operation → List Segment
  | .push _ => []
  | .pop => q.pop.1.toOption.toList

theorem performConserves (q : Backlog) (o : Operation) :
    q.yields o ++ (q.perform o).toList = q.toList ++ o.pushed := by
  cases o with
  | push segment => exact q.toListPush segment
  | pop =>
    rw [yields, perform, Operation.pushed, List.append_nil]
    cases popped : q.pop with
    | mk answer rest =>
      cases answer with
      | ok s => exact (popTook popped).symm
      | error error => rw [(popFailed popped).2]; rfl

theorem performExact {q : Backlog} (exact : q.Exact) (o : Operation) : (q.perform o).Exact := by
  cases o with
  | push segment => exact exactPush exact segment
  | pop => exact exactPop exact

def after (q : Backlog) (operations : List Operation) : Backlog := operations.foldl perform q

def popped (q : Backlog) : List Operation → List Segment
  | [] => []
  | o :: rest => q.yields o ++ (q.perform o).popped rest

theorem afterConserves (q : Backlog) (operations : List Operation) :
    q.popped operations ++ (q.after operations).toList = q.toList ++ pushed operations := by
  induction operations generalizing q with
  | nil => exact (List.append_nil _).symm
  | cons o rest ih =>
    calc q.popped (o :: rest) ++ (q.after (o :: rest)).toList
      _ = q.yields o ++ ((q.perform o).popped rest ++ ((q.perform o).after rest).toList) :=
        List.append_assoc _ _ _
      _ = (q.yields o ++ (q.perform o).toList) ++ pushed rest := by rw [ih, List.append_assoc]
      _ = q.toList ++ pushed (o :: rest) := by rw [performConserves, pushedCons, List.append_assoc]

theorem afterExact {q : Backlog} (exact : q.Exact) (operations : List Operation) :
    (q.after operations).Exact := by
  induction operations generalizing q with
  | nil => exact exact
  | cons o rest ih => exact ih (performExact exact o)

/- A course is any beginning of a longer one, so this holds at every point. In the last
part `later` is what still comes: the count has room for all of it. -/
theorem firstInFirstOut (operations : List Operation) :
    let q := empty.after operations
    empty.popped operations ++ q.toList = pushed operations ∧
      q.size = q.toList.length ∧ q.bytes = totalSize q.toList ∧
      (q.isEmpty = true ↔ q.size = 0) ∧
      ((∃ error rest, q.pop = (.error error, rest)) ↔ q.isEmpty = true) ∧
      (∀ error rest, q.pop = (.error error, rest) → rest = q) ∧
      (∀ segment rest, q.pop = (.ok segment, rest) →
        q.toList = segment :: rest.toList ∧ rest.bytes + segment.size = q.bytes) ∧
      ∀ later, totalSize (pushed (operations ++ later)) < UInt64.size →
        q.bytes + totalSize (pushed later) < UInt64.size := by
  intro q
  have conserved : empty.popped operations ++ q.toList = pushed operations :=
    afterConserves empty operations
  have exact : q.Exact := afterExact exactEmpty operations
  have emptied : q.isEmpty = true ↔ q.toList = [] := by
    rw [isEmptyToList, List.isEmpty_iff]
  refine ⟨conserved, q.sizeToList, exact, ?_, ?_, fun _ _ failed => (popFailed failed).2,
    fun _ _ took => ⟨popTook took, popBytes exact took⟩, fun later small => ?_⟩
  · rw [emptied, sizeToList, List.length_eq_zero_iff]
  · rw [emptied]
    constructor
    · rintro ⟨error, rest, failed⟩
      exact (popFailed failed).1
    · intro nobody
      exact ⟨.empty, q, popNil nobody⟩
  · rw [pushedAppend, ← conserved, totalSizeAppend, totalSizeAppend, ← exact] at small
    omega

/- The first two pops find nobody, with one that succeeds between them. Then a segment
without bytes waits alone: the count is zero, and yet a pop takes it. -/
theorem firstInFirstOutWithoutBytes :
    let hollow : Segment := ⟨⟨#[]⟩⟩
    let emptied : List Operation := [.pop, .push ⟨⟨#[1, 2]⟩⟩, .pop]
    let operations : List Operation := emptied ++ [.pop, .push hollow]
    let later : List Operation := [.push ⟨⟨#[3]⟩⟩, .pop]
    let q := empty.after operations
    (empty.after emptied).pop = (.error .empty, empty) ∧ empty.after emptied = empty ∧
      q.pop = (.ok hollow, empty) ∧ totalSize (pushed (operations ++ later)) < UInt64.size ∧
      empty.popped operations ++ [hollow] = pushed operations ∧ q.bytes = 0 ∧ q.isEmpty = false ∧
      q.toList = [hollow] ∧ q.bytes + 1 < UInt64.size := by
  intro hollow emptied operations later q
  have failed : (empty.after emptied).pop = (.error .empty, empty) := rfl
  have took : q.pop = (.ok hollow, empty) := rfl
  have small : totalSize (pushed (operations ++ later)) < UInt64.size := by decide
  obtain ⟨_, _, _, _, _, unchanged, _⟩ := firstInFirstOut emptied
  obtain ⟨conserved, _, _, _, fails, _, takes, room⟩ := firstInFirstOut operations
  obtain ⟨waiting, count⟩ := takes hollow empty took
  rw [show (empty.after operations).toList = [hollow] from waiting] at conserved
  refine ⟨failed, (unchanged _ _ failed).symm, took, small, conserved, count.symm, ?_, waiting,
    room later small⟩
  rw [Bool.eq_false_iff]
  intro nobody
  obtain ⟨_, _, again⟩ := fails.mpr nobody
  rw [took] at again
  cases again

end SegmentPump.Backlog
