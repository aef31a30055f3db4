import Mathlib.Data.List.Basic
import SegmentPump.Trace.Law

/-! What the checks of the laws of a trace decide. The first three watch a trace
event by event and remember little: the numbers that wait, whether an append is
under way, whether the sink was ready. `Watched` says so of a check, and what
follows of every such check follows once. The last law counts. -/
namespace SegmentPump

namespace Trace

theorem arrivedCons (e : TraceEvent) (t : Trace) :
    arrived (e :: t) = e.arrived?.toList ++ t.arrived := by
  cases e <;> rfl

theorem appendedCons (e : TraceEvent) (t : Trace) :
    appended (e :: t) = e.appended?.toList ++ t.appended := by
  cases e <;> rfl

@[simp] theorem arrivedAppend (t u : Trace) : arrived (t ++ u) = t.arrived ++ arrived u :=
  List.filterMap_append

@[simp] theorem arrivedAppends (numbers : List Nat) : arrived (numbers.map .appended) = [] := by
  induction numbers with
  | nil => rfl
  | cons n rest ih => rw [List.map_cons, arrivedCons, ih]; rfl

theorem countAppends (numbers : List Nat) {e : TraceEvent} (other : e.appended? = none) :
    (numbers.map TraceEvent.appended).count e = 0 := by
  refine List.count_eq_zero.mpr fun member => ?_
  obtain ⟨n, -, rfl⟩ := List.mem_map.mp member
  cases other

theorem lengthParts (t : Trace) :
    t.length = t.arrived.length + t.appended.length + t.count .completed + t.count .ready := by
  induction t with
  | nil => rfl
  | cons e rest ih =>
    rw [arrivedCons, appendedCons, List.length_cons, List.count_cons, List.count_cons, ih]
    cases e <;> simp [TraceEvent.arrived?, TraceEvent.appended?] <;> omega

end Trace

namespace Law

variable {α : Type} {check : Nat → α → Trace → Option Violation} {next : α → TraceEvent → α}

structure Watched (check : Nat → α → Trace → Option Violation) (next : α → TraceEvent → α) :
    Prop where
  nothing (index : Nat) (state : α) : check index state [] = none
  first (index : Nat) (state : α) (e : TraceEvent) (rest : Trace) :
    check index state (e :: rest) =
      (check index state [e]).or (check (index + 1) (next state e) rest)

namespace Watched

variable (watched : Watched check next)
include watched

theorem split (index : Nat) (state : α) (t u : Trace) :
    check index state (t ++ u) =
      (check index state t).or (check (index + t.length) (t.foldl next state) u) := by
  induction t generalizing index state with
  | nil => simp [watched.nothing]
  | cons e rest ih =>
    have place : index + (rest.length + 1) = index + 1 + rest.length := by omega
    rw [List.cons_append, watched.first, ih, watched.first index state e rest, Option.or_assoc,
      List.length_cons, place, List.foldl_cons]

theorem head {index : Nat} {state : α} {t u : Trace} (accepted : check index state (t ++ u) = none) :
    check index state t = none := by
  rw [watched.split, Option.or_eq_none_iff] at accepted
  exact accepted.1

end Watched

def lineUp (waiting : Line Nat) : TraceEvent → Line Nat
  | .arrived sequence => waiting.push sequence
  | .appended _ => (waiting.pop?.map Prod.snd).getD waiting
  | _ => waiting

theorem orderingWatched : Watched checkOrdering lineUp where
  nothing _ _ := rfl
  first index waiting e rest := by
    cases e with
    | arrived => simp [checkOrdering, lineUp]
    | appended sequence =>
      rcases popped : waiting.pop? with _ | ⟨expected, later⟩
      · simp [checkOrdering, popped, blame]
      · by_cases same : expected = sequence <;>
          simp [checkOrdering, lineUp, popped, same, blame]
    | ready => simp [checkOrdering, lineUp]
    | completed => simp [checkOrdering, lineUp]

theorem lineUpOrdered {index : Nat} {waiting : List Nat} {t : Trace}
    (accepted : checkOrdering index (.ofList waiting) t = none) :
    waiting ++ t.arrived = t.appended ++ (t.foldl lineUp (.ofList waiting)).toList := by
  induction t generalizing index waiting with
  | nil => simp [Trace.arrived, Trace.appended]
  | cons e rest ih =>
    rw [Trace.arrivedCons, Trace.appendedCons, List.foldl_cons]
    cases e with
    | arrived sequence =>
      rw [checkOrdering, Line.pushOfList] at accepted
      simpa [TraceEvent.arrived?, TraceEvent.appended?, lineUp] using ih accepted
    | appended sequence =>
      cases waiting with
      | nil => simp [checkOrdering, blame] at accepted
      | cons expected later =>
        by_cases same : expected = sequence
        · simp only [checkOrdering, Line.popCons, same, if_true] at accepted
          simpa [TraceEvent.arrived?, TraceEvent.appended?, lineUp, same] using ih accepted
        · simp [checkOrdering, same, blame] at accepted
    | ready => exact ih accepted
    | completed => exact ih accepted

def hold (busy : Bool) : TraceEvent → Bool
  | .appended _ => true
  | .completed => false
  | _ => busy

theorem inFlightWatched : Watched checkInFlight hold where
  nothing _ _ := rfl
  first index busy e rest := by
    cases e <;> cases busy <;> simp [checkInFlight, hold, blame]

theorem inFlightBalance {index : Nat} {busy : Bool} {t : Trace}
    (accepted : checkInFlight index busy t = none) :
    t.appended.length + busy.toNat = t.count .completed + (t.foldl hold busy).toNat := by
  induction t generalizing index busy with
  | nil => simp [Trace.appended]
  | cons e rest ih =>
    rw [inFlightWatched.first, Option.or_eq_none_iff] at accepted
    have later := ih accepted.2
    rw [Trace.appendedCons, List.foldl_cons, List.count_cons]
    cases e with
    | arrived => simpa [hold, TraceEvent.appended?] using later
    | ready => simpa [hold, TraceEvent.appended?] using later
    | appended =>
      cases busy with
      | true => simp [checkInFlight, blame] at accepted
      | false => simp [hold, TraceEvent.appended?] at later ⊢; omega
    | completed =>
      cases busy with
      | true => simp [hold, TraceEvent.appended?] at later ⊢; omega
      | false => simp [checkInFlight, blame] at accepted

def unlock (ready : Bool) (e : TraceEvent) : Bool := ready || decide (e = .ready)

def checkGateFrom (index : Nat) (ready : Bool) (t : Trace) : Option Violation :=
  if ready then none else checkGate index t

theorem gateWatched : Watched checkGateFrom unlock where
  nothing _ ready := by cases ready <;> rfl
  first index ready e rest := by
    cases ready <;> cases e <;> simp [checkGateFrom, checkGate, unlock, blame]

theorem firstRepeatNone (seen : Std.TreeSet Nat) (numbers : List Nat) :
    firstRepeat seen numbers = none ↔ numbers.Nodup ∧ ∀ n ∈ numbers, n ∉ seen := by
  induction numbers generalizing seen with
  | nil => simp [firstRepeat]
  | cons n rest ih =>
    by_cases twice : n ∈ seen
    · simp [firstRepeat, twice]
    · have apart : (∀ m ∈ rest, m ∉ seen.insert n) ↔ n ∉ rest ∧ ∀ m ∈ rest, m ∉ seen := by
        simp only [Std.TreeSet.mem_insert, Std.LawfulEqCmp.compare_eq_iff_eq, not_or]
        constructor
        · exact fun all => ⟨fun member => (all n member).1 rfl, fun m member => (all m member).2⟩
        · exact fun ⟨absent, all⟩ m member => ⟨fun same => absent (same ▸ member), all m member⟩
      rw [firstRepeat, if_neg (by simpa using twice), ih, apart, List.nodup_cons]
      simp [twice, and_left_comm, and_assoc]

theorem firstMissingNone (others numbers : List Nat) :
    firstMissing others numbers = none ↔ ∀ n ∈ numbers, n ∈ others := by
  simp [firstMissing, Std.TreeSet.contains_ofList]

theorem lossNone (t : Trace) :
    checkLoss t = none ↔ t.appended.Nodup ∧ ∀ n ∈ t.arrived, n ∈ t.appended := by
  have repeats := firstRepeatNone ∅ t.appended
  have missing := firstMissingNone t.appended t.arrived
  simp only [Std.TreeSet.not_mem_emptyc, not_false_eq_true, implies_true, and_true] at repeats
  rw [checkLoss, ← repeats, ← missing]
  cases firstRepeat ∅ t.appended with
  | some sequence => simp
  | none => cases firstMissing t.appended t.arrived <;> simp

end Law

theorem Trace.violationsNone {t : Trace} :
    t.violations = [] ↔ ∀ law : Law, law.check t = none := by
  simp only [violations, List.filterMap_eq_nil_iff]
  exact ⟨fun silent law => silent law (by cases law <;> simp [Law.all]), fun all law _ => all law⟩

end SegmentPump
