import Mathlib.Data.List.Induction
import SegmentPump.Proofs.Trace.Law

/-! What the laws of a trace ask, said without their checks. The first three ask
something of the events so far and are meant to hold at every point of a trace.
Their checks read a trace once and remember little, but they accept exactly the
traces that keep the law throughout, and otherwise blame the first event after
which it is broken. -/
namespace SegmentPump

namespace Trace

@[simp] theorem appendedAppend (t u : Trace) : appended (t ++ u) = t.appended ++ appended u :=
  List.filterMap_append

@[simp] theorem arrivedOne (e : TraceEvent) : arrived [e] = e.arrived?.toList := by
  cases e <;> rfl

@[simp] theorem appendedOne (e : TraceEvent) : appended [e] = e.appended?.toList := by
  cases e <;> rfl

end Trace

namespace Law

def Holds : Law → Trace → Prop
  | .ordering, t => t.appended <+: t.arrived
  | .singleInFlight, t =>
    t.appended.length = t.count .completed ∨ t.appended.length = t.count .completed + 1
  | .readinessGate, t => t.appended ≠ [] → .ready ∈ t
  | .noLoss, t => t.appended.Nodup ∧ ∀ n ∈ t.arrived, n ∈ t.appended

instance (law : Law) (t : Trace) : Decidable (law.Holds t) := by
  cases law <;> unfold Holds <;> infer_instance

variable {α : Type} {check : Nat → α → Trace → Option Violation} {next : α → TraceEvent → α}

namespace Watched

variable (watched : Watched check next)
include watched

theorem stays {index : Nat} {state : α} {t : Trace} {v : Violation}
    (failed : check index state t = some v) (more : Trace) :
    check index state (t ++ more) = some v := by
  rw [watched.split, failed, Option.some_or]

theorem firstFailure {index : Nat} {state : α} {t : Trace} {v : Violation}
    (failed : check index state t = some v) :
    ∃ before e after, t = before ++ e :: after ∧ check index state before = none ∧
      check (index + before.length) (before.foldl next state) [e] = some v := by
  induction t generalizing index state with
  | nil =>
    rw [watched.nothing] at failed
    cases failed
  | cons e rest ih =>
    rw [watched.first] at failed
    cases here : check index state [e] with
    | some _ =>
      rw [here, Option.some_or] at failed
      exact ⟨[], e, rest, rfl, watched.nothing _ _, here.trans failed⟩
    | none =>
      rw [here, Option.none_or] at failed
      obtain ⟨before, broken, after, rfl, accepted, blamed⟩ := ih failed
      have place : index + (e :: before).length = index + 1 + before.length := by
        rw [List.length_cons]
        omega
      refine ⟨e :: before, broken, after, rfl, ?_, ?_⟩
      · rw [watched.first, here, Option.none_or, accepted]
      · rw [place]
        exact blamed

end Watched

/- A check that answers for `holds`: with nothing blamed so far, the next event is
blamed if and only if the law no longer holds behind it. -/
structure Decides (check : Nat → α → Trace → Option Violation) (next : α → TraceEvent → α)
    (start : α) (holds : Trace → Prop) : Prop extends Watched check next where
  silent : holds []
  step (t : Trace) (e : TraceEvent) (accepted : check 0 start t = none) (kept : holds t) :
    check t.length (t.foldl next start) [e] = none ↔ holds (t ++ [e])
  place (index : Nat) (state : α) (e : TraceEvent) (v : Violation)
    (failed : check index state [e] = some v) : v.index = some index

namespace Decides

variable {start : α} {holds : Trace → Prop} (decides : Decides check next start holds)
include decides

theorem accepts (t : Trace) : check 0 start t = none ↔ ∀ p, p <+: t → holds p := by
  induction t using List.reverseRecOn with
  | nil =>
    rw [decides.nothing]
    simpa using decides.silent
  | append_singleton t e ih =>
    rw [decides.split, Option.or_eq_none_iff, ih, Nat.zero_add, and_comm]
    simp only [List.prefix_concat_iff, forall_eq_or_imp]
    exact and_congr_left fun before => decides.step t e (ih.mpr before) (before t List.prefix_rfl)

theorem blames {t : Trace} {v : Violation} (failed : check 0 start t = some v) :
    ∃ i, i < t.length ∧ v.index = some i ∧ ¬ holds (t.take (i + 1)) ∧
      (∀ j, j < i → holds (t.take (j + 1))) ∧ check 0 start (t.take i) = none ∧
      ∀ more, check 0 start (t ++ more) = some v := by
  obtain ⟨before, e, after, rfl, accepted, blamed⟩ := decides.firstFailure failed
  rw [Nat.zero_add] at blamed
  have whole : before ++ e :: after = before ++ [e] ++ after := by simp
  have upTo : (before ++ e :: after).take before.length = before := List.take_left
  have through : (before ++ e :: after).take (before.length + 1) = before ++ [e] := by
    rw [whole]
    exact List.take_left' (by simp)
  refine ⟨before.length, by simp, decides.place _ _ _ _ blamed, ?_, fun j early => ?_, ?_,
    decides.stays failed⟩
  · have kept := (decides.accepts before).mp accepted
    rw [through, ← decides.step before e accepted (kept before List.prefix_rfl), blamed]
    nofun
  · have earlier : (before ++ e :: after).take (j + 1) <+: before :=
      List.prefix_of_prefix_length_le (List.take_prefix _ _) (List.prefix_append _ _)
        (by rw [List.length_take]; omega)
    exact (decides.accepts before).mp accepted _ earlier
  · rw [upTo]
    exact accepted

end Decides

/- What waits is what arrived beyond the appends, so that the next append has to
be that of its head. -/
theorem orderingDecides : Decides checkOrdering lineUp .empty ordering.Holds where
  toWatched := orderingWatched
  silent := List.prefix_rfl
  step t e accepted _ := by
    have line : [] ++ t.arrived = t.appended ++ (t.foldl lineUp (.ofList [])).toList :=
      lineUpOrdered accepted
    rw [List.nil_append] at line
    change checkOrdering _ (t.foldl lineUp (.ofList [])) _ = none ↔ _
    cases state : t.foldl lineUp (.ofList []) with
    | ofList waiting =>
      rw [state, Line.toListOfList] at line
      have holds : ordering.Holds (t ++ [e]) ↔ e.appended?.toList <+: waiting ++ e.arrived?.toList := by
        simp only [Holds, Trace.appendedAppend, Trace.arrivedAppend, Trace.appendedOne,
          Trace.arrivedOne, line, List.append_assoc, List.prefix_append_right_inj]
      rw [holds]
      cases e with
      | appended sequence =>
        cases waiting with
        | nil => simp [checkOrdering, blame, TraceEvent.appended?, TraceEvent.arrived?]
        | cons expected later =>
          simp only [checkOrdering, Line.popCons, TraceEvent.appended?, Option.toList_some,
            List.cons_append, List.cons_prefix_cons, List.nil_prefix, and_true, eq_comm (a := sequence)]
          by_cases same : expected = sequence <;> simp [same, blame]
      | _ => simp [checkOrdering, TraceEvent.appended?]
  place index waiting e v failed := by
    cases e with
    | appended sequence =>
      rw [checkOrdering] at failed
      split at failed
      · cases failed
        rfl
      · split at failed
        · cases failed
        · cases failed
          rfl
    | _ => cases failed

theorem inFlightDecides : Decides checkInFlight hold false singleInFlight.Holds where
  toWatched := inFlightWatched
  silent := .inl rfl
  step t e accepted _ := by
    have balance := inFlightBalance accepted
    simp only [Holds, Trace.appendedAppend, List.length_append, List.count_append]
    generalize t.foldl hold false = busy at balance
    cases e <;> cases busy <;> simp [checkInFlight, blame, TraceEvent.appended?] at balance ⊢ <;> omega
  place index busy e v failed := by
    cases e <;> cases busy <;> cases failed <;> rfl

theorem unlocked (ready : Bool) (t : Trace) :
    t.foldl unlock ready = (ready || decide (.ready ∈ t)) := by
  induction t generalizing ready with
  | nil => simp
  | cons e rest ih =>
    rw [List.foldl_cons, ih, unlock]
    cases e <;> simp

theorem gateDecides : Decides checkGateFrom unlock false readinessGate.Holds where
  toWatched := gateWatched
  silent := nofun
  step t e _ kept := by
    rw [unlocked, Bool.false_or]
    by_cases ready : .ready ∈ t
    · simp [checkGateFrom, Holds, ready]
    · have empty : t.appended = [] := by
        by_contra more
        exact ready (kept more)
      cases e <;> simp [checkGateFrom, checkGate, blame, Holds, ready, empty, TraceEvent.appended?]
  place index ready e v failed := by
    cases ready <;> cases e <;> cases failed
    rfl

theorem blamesFirstBreach {law : Law} (safety : law ≠ .noLoss) (t : Trace) :
    (law.check t = none ↔ ∀ p, p <+: t → law.Holds p) ∧
      ∀ v, law.check t = some v → ∃ i, i < t.length ∧ v.index = some i ∧
        ¬ law.Holds (t.take (i + 1)) ∧ (∀ j, j < i → law.Holds (t.take (j + 1))) ∧
        law.check (t.take i) = none ∧ ∀ more, law.check (t ++ more) = some v := by
  cases law with
  | ordering => exact ⟨orderingDecides.accepts t, fun _ => orderingDecides.blames⟩
  | singleInFlight => exact ⟨inFlightDecides.accepts t, fun _ => inFlightDecides.blames⟩
  | readinessGate => exact ⟨gateDecides.accepts t, fun _ => gateDecides.blames⟩
  | noLoss => exact absurd rfl safety

theorem blamesFirstBreachSwapped :
    let t : Trace := [.arrived 0, .arrived 1, .ready, .appended 1, .completed]
    ordering ≠ .noLoss ∧ ∃ v, ordering.check t = some v ∧ v.index = some 3 ∧
      ¬ ordering.Holds (t.take 4) ∧ ordering.check (t ++ [.appended 0]) = some v := by
  intro t
  have safety : ordering ≠ .noLoss := nofun
  have failed : ordering.check t = blame .ordering 3 "appended segment 1, expected 0" := rfl
  obtain ⟨i, _, index, broken, _, _, stays⟩ := (blamesFirstBreach safety t).2 _ failed
  cases index
  exact ⟨safety, _, failed, rfl, broken, stays _⟩

end Law
end SegmentPump
