import Mathlib.Data.List.Chain
import Mathlib.Data.List.Nodup
import Mathlib.Data.List.Perm.Subperm
import SegmentPump.Proofs.Trace.Blame

/-! What it means that nothing is blamed. The four laws are checked apart, and
none of them speaks of delivery, but a trace whose segments arrived under
different numbers keeps them all exactly when everything that arrived was
appended in that order, each append came after its arrival and after readiness,
and appends and completions took turns. -/
namespace SegmentPump

namespace TraceEvent

def takes? : TraceEvent → Option Bool
  | .appended _ => some true
  | .completed => some false
  | _ => none

end TraceEvent

namespace Trace

def turns (t : Trace) : List Bool := t.filterMap TraceEvent.takes?

def Alternates (t : Trace) : Prop := t.turns.IsChain (· ≠ ·) ∧ t.turns.head? ≠ some false

structure Delivered (t : Trace) : Prop where
  same : t.appended = t.arrived
  grounded (before : Trace) (n : Nat) (after : Trace) (split : t = before ++ .appended n :: after) :
    .arrived n ∈ before ∧ .ready ∈ before
  alternates : t.Alternates

theorem turnsCons (e : TraceEvent) (t : Trace) : turns (e :: t) = e.takes?.toList ++ t.turns := by
  cases e <;> rfl

variable {t : Trace}

theorem memArrived {n : Nat} : n ∈ t.arrived ↔ .arrived n ∈ t := by
  rw [arrived, List.mem_filterMap]
  constructor
  · rintro ⟨e, member, arrives⟩
    cases e <;> cases arrives
    exact member
  · exact fun member => ⟨_, member, rfl⟩

theorem memAppended {n : Nat} : n ∈ t.appended ↔ .appended n ∈ t := by
  rw [appended, List.mem_filterMap]
  constructor
  · rintro ⟨e, member, appends⟩
    cases e <;> cases appends
    exact member
  · exact fun member => ⟨_, member, rfl⟩

end Trace

namespace Law

variable {t : Trace}

theorem inFlightTurns (index : Nat) (busy : Bool) (t : Trace) :
    checkInFlight index busy t = none ↔ (busy :: t.turns).IsChain (· ≠ ·) := by
  induction t generalizing index busy with
  | nil => simp [checkInFlight, Trace.turns]
  | cons e rest ih =>
    rw [Trace.turnsCons]
    cases e <;> cases busy <;> simp [checkInFlight, blame, ih, TraceEvent.takes?]

theorem inFlightAlternates : singleInFlight.check t = none ↔ t.Alternates := by
  rw [check, inFlightTurns, List.isChain_cons, Trace.Alternates, and_comm]
  refine and_congr_right fun _ => ?_
  cases t.turns.head? <;> simp

theorem orderingGrounded (ordered : ordering.check t = none) {before after : Trace} {n : Nat}
    (split : t = before ++ .appended n :: after) : .arrived n ∈ before := by
  have through : before ++ [.appended n] <+: t := ⟨after, by simp [split]⟩
  have kept := (orderingDecides.accepts t).mp ordered _ through
  have appended : n ∈ Trace.appended (before ++ [.appended n]) := Trace.memAppended.mpr (by simp)
  simpa using Trace.memArrived.mp (kept.subset appended)

theorem gateGrounded : readinessGate.check t = none ↔
    ∀ before n after, t = before ++ .appended n :: after → .ready ∈ before := by
  refine (gateDecides.accepts t).trans ⟨fun kept before n after split => ?_, fun grounded p => ?_⟩
  · have through : before ++ [.appended n] <+: t := ⟨after, by simp [split]⟩
    have appended : n ∈ Trace.appended (before ++ [.appended n]) := Trace.memAppended.mpr (by simp)
    simpa using kept _ through (List.ne_nil_of_mem appended)
  · rintro ⟨rest, rfl⟩ more
    obtain ⟨n, member⟩ := List.exists_mem_of_ne_nil _ more
    obtain ⟨before, after, rfl⟩ := List.append_of_mem (Trace.memAppended.mp member)
    have ready := grounded before n (after ++ rest) (by simp)
    exact List.mem_append_left _ ready

theorem orderingDelivered (distinct : t.arrived.Nodup) (delivered : t.Delivered) :
    ordering.check t = none := by
  refine (orderingDecides.accepts t).mpr fun (p : Trace) => ?_
  rintro ⟨rest, rfl⟩
  have same := delivered.same
  rw [Trace.appendedAppend, Trace.arrivedAppend] at same
  rw [Trace.arrivedAppend] at distinct
  have once : (Trace.appended p).Nodup := (same ▸ distinct).of_append_left
  have arrived : Trace.appended p ⊆ Trace.arrived p := fun n member => by
    obtain ⟨before, after, rfl⟩ := List.append_of_mem (Trace.memAppended.mp member)
    have earlier := (delivered.grounded before n (after ++ rest) (by simp)).1
    exact Trace.memArrived.mpr (List.mem_append_left _ earlier)
  exact List.prefix_of_prefix_length_le ⟨_, same⟩ (List.prefix_append _ _)
    (once.subperm arrived).length_le

theorem orderingLossless (distinct : t.arrived.Nodup) (ordered : ordering.check t = none)
    (lossless : noLoss.check t = none) : t.appended = t.arrived := by
  obtain ⟨rest, line⟩ := (orderingDecides.accepts t).mp ordered t List.prefix_rfl
  rw [← line] at distinct
  cases rest with
  | nil => rw [← line, List.append_nil]
  | cons n rest =>
    have missed : n ∈ t.appended := ((lossNone t).mp lossless).2 n (by simp [← line])
    exact absurd (by simp) (List.disjoint_of_nodup_append distinct missed)

theorem violationsDelivered (distinct : t.arrived.Nodup) : t.violations = [] ↔ t.Delivered := by
  rw [Trace.violationsNone]
  constructor
  · intro clean
    refine ⟨orderingLossless distinct (clean ordering) (clean noLoss), fun before n after split => ?_,
      inFlightAlternates.mp (clean singleInFlight)⟩
    exact ⟨orderingGrounded (clean ordering) split,
      gateGrounded.mp (clean readinessGate) before n after split⟩
  · rintro delivered (_ | _ | _ | _)
    · exact orderingDelivered distinct delivered
    · exact inFlightAlternates.mpr delivered.alternates
    · exact gateGrounded.mpr fun before n after split => (delivered.grounded before n after split).2
    · refine (lossNone t).mpr ⟨delivered.same ▸ distinct, fun n member => ?_⟩
      exact delivered.same ▸ member

/- The description of a loss names the first number that was appended again, and
only without one the first number that was never appended. -/
inductive Lost (t : Trace) : String → Prop where
  | twice {before after : List Nat} {n : Nat} (split : t.appended = before ++ n :: after)
      (once : before.Nodup) (again : n ∈ before) :
      Lost t s!"segment {n} appended more than once"
  | never {before after : List Nat} {n : Nat} (once : t.appended.Nodup)
      (split : t.arrived = before ++ n :: after) (present : ∀ m ∈ before, m ∈ t.appended)
      (absent : n ∉ t.appended) :
      Lost t (s!"segment {n} never appended " ++
        s!"({t.appended.length} of {t.arrived.length} delivered)")

theorem firstRepeatSome {seen : Std.TreeSet Nat} {numbers : List Nat} {n : Nat}
    (found : firstRepeat seen numbers = some n) :
    ∃ before after, numbers = before ++ n :: after ∧ before.Nodup ∧ (∀ m ∈ before, m ∉ seen) ∧
      (n ∈ seen ∨ n ∈ before) := by
  induction numbers generalizing seen with
  | nil => cases found
  | cons m rest ih =>
    by_cases twice : m ∈ seen
    · simp only [firstRepeat, Std.TreeSet.contains_iff_mem.mpr twice, if_true] at found
      cases found
      exact ⟨[], rest, rfl, List.nodup_nil, List.forall_mem_nil _, .inl twice⟩
    · rw [firstRepeat, if_neg (by simpa using twice)] at found
      obtain ⟨before, after, rfl, once, fresh, again⟩ := ih found
      simp only [Std.TreeSet.mem_insert, Std.LawfulEqCmp.compare_eq_iff_eq, not_or] at fresh again
      refine ⟨m :: before, after, rfl, ?_, ?_, ?_⟩
      · exact List.nodup_cons.mpr ⟨fun member => (fresh m member).1 rfl, once⟩
      · exact List.forall_mem_cons.mpr ⟨twice, fun k member => (fresh k member).2⟩
      · rcases again with (rfl | before') | here
        · simp
        · exact .inl before'
        · exact .inr (List.mem_cons_of_mem _ here)

theorem firstMissingSome {others numbers : List Nat} {n : Nat}
    (found : firstMissing others numbers = some n) :
    ∃ before after, numbers = before ++ n :: after ∧ (∀ m ∈ before, m ∈ others) ∧ n ∉ others := by
  obtain ⟨missing, before, after, split, present⟩ := List.find?_eq_some_iff_append.mp found
  simp only [Std.TreeSet.contains_ofList] at missing present
  exact ⟨before, after, split, by simpa using present, by simpa using missing⟩

theorem lossSome {v : Violation} (failed : checkLoss t = some v) :
    v.law = noLoss.name ∧ v.index = none ∧ Lost t v.description := by
  rw [checkLoss] at failed
  cases repeats : firstRepeat ∅ t.appended with
  | some n =>
    rw [repeats] at failed
    cases failed
    obtain ⟨before, after, split, once, -, again⟩ := firstRepeatSome repeats
    exact ⟨rfl, rfl, .twice split once (again.resolve_left (by simp))⟩
  | none =>
    rw [repeats] at failed
    have once := ((firstRepeatNone ∅ t.appended).mp repeats).1
    cases missing : firstMissing t.appended t.arrived with
    | none => simp [missing] at failed
    | some n =>
      simp only [missing] at failed
      cases failed
      obtain ⟨before, after, split, present, absent⟩ := firstMissingSome missing
      exact ⟨rfl, rfl, .never once split present absent⟩

theorem cleanMeansDelivered (t : Trace) :
    (t.arrived.Nodup → (t.violations = [] ↔ t.Delivered)) ∧
      (noLoss.check t = none ↔ t.appended.Nodup ∧ ∀ n ∈ t.arrived, n ∈ t.appended) ∧
      ∀ v, noLoss.check t = some v → v.law = "NoLoss" ∧ v.index = none ∧ Lost t v.description :=
  ⟨violationsDelivered, lossNone t, fun _ => lossSome⟩

theorem cleanMeansDeliveredUnderway :
    let t : Trace := [.arrived 7, .ready, .appended 7, .arrived 4, .completed, .appended 4]
    t.arrived.Nodup ∧ t.violations = [] ∧ t.Delivered := by
  intro t
  have distinct : t.arrived.Nodup := by decide
  have clean : t.violations = [] := by decide
  exact ⟨distinct, clean, ((cleanMeansDelivered t).1 distinct).mp clean⟩

end Law
end SegmentPump
