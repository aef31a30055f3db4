import SegmentPump.Proofs.Pump.Reaction
import SegmentPump.Proofs.Sink.Observed

/-! The course of a pump that goes on after failures: every event is handled,
whatever became of the earlier ones. An observer at the sink changes nothing
about the course. -/
namespace SegmentPump

variable {σ τ : Type}

def arrivals (events : List Event) : List Segment := events.flatMap Event.arrivals

@[simp] theorem arrivalsNil : arrivals [] = [] := rfl

@[simp] theorem arrivalsAppend (xs ys : List Event) :
    arrivals (xs ++ ys) = arrivals xs ++ arrivals ys := by
  simp [arrivals]

@[simp] theorem arrivalsOne (e : Event) : arrivals [e] = e.arrivals := by
  simp [arrivals]

/- A completion counts unless it was answered as unexpected. -/
def Event.taken (e : Event) : Except Fault Unit → Nat
  | .error (.pump .unexpectedCompletion) => 0
  | _ => e.completions

def Pump.withSink (f : σ → τ) (p : Pump σ) : Pump τ :=
  { sink := f p.sink, backlog := p.backlog, slot := p.slot, ready := p.ready
    counters := p.counters, warnDepth := p.warnDepth, armed := p.armed }

def Step.withSink (f : σ → τ) (s : Step σ) : Step τ :=
  { pump := s.pump.withSink f, result := s.result, notices := s.notices }

namespace Pump

variable [Sink σ] [Sink τ]

def observed (sink : σ) (warnDepth : Nat) : Pump (Observed σ) := .new { sink } warnDepth

def after (p : Pump σ) (events : List Event) : Pump σ :=
  events.foldl (fun p e => (p.react e).pump) p

def completed (p : Pump σ) : List Event → Nat
  | [] => 0
  | e :: rest => e.taken (p.react e).result + (p.react e).pump.completed rest

@[simp] theorem afterNil (p : Pump σ) : p.after [] = p := rfl

@[simp] theorem afterCons (p : Pump σ) (e : Event) (rest : List Event) :
    p.after (e :: rest) = (p.react e).pump.after rest := rfl

theorem afterSnoc (p : Pump σ) (events : List Event) (e : Event) :
    p.after (events ++ [e]) = ((p.after events).react e).pump := by
  simp [after, List.foldl_append]

theorem completedSnoc (p : Pump σ) (events : List Event) (e : Event) :
    p.completed (events ++ [e]) =
      p.completed events + e.taken ((p.after events).react e).result := by
  induction events generalizing p with
  | nil => simp [completed]
  | cons head rest ih => simp [completed, ih, Nat.add_assoc]

theorem afterAppend (p : Pump σ) (events later : List Event) :
    p.after (events ++ later) = (p.after events).after later :=
  List.foldl_append

theorem afterLatched {p : Pump σ} (latched : p.Latched) (events : List Event) :
    (p.after events).Latched := by
  induction events generalizing p with
  | nil => exact latched
  | cons e rest ih => exact ih (reactLatched latched e)

omit [Sink σ] in
theorem newLatched (sink : σ) (warnDepth : Nat) : (new sink warnDepth).Latched :=
  fun busy => nomatch busy

theorem afterReady {p : Pump σ} (latched : p.Latched) (ready : p.ready = true)
    (events : List Event) : (p.after events).ready = true := by
  induction events generalizing p with
  | nil => exact ready
  | cons e rest ih =>
    have still : (p.react e).pump.ready = true := by rw [reactReady latched, ready]; rfl
    exact ih (reactLatched latched e) still

theorem reactOffers {p : Pump (Observed σ)} (latched : p.Latched) (e : Event) :
    ∃ more, more.length ≤ 1 ∧
      (p.react e).pump.sink.offers.toList = p.sink.offers.toList ++ more := by
  have way := applied latched e
  rw [reactPump]
  generalize p.apply e = s at way ⊢
  cases way with
  | unexpected => exact ⟨[], Nat.zero_le 1, (List.append_nil _).symm⟩
  | held => exact ⟨[], Nat.zero_le 1, by rw [enterSink, List.append_nil]⟩
  | advanced _ _ advance =>
    cases advance with
    | rest =>
      exact ⟨[], Nat.zero_le 1, by rw [Step.afterPump, Step.donePump, enterSink, List.append_nil]⟩
    | @offer segment _ reply _ _ answer =>
      rw [enterSink] at answer
      refine ⟨[⟨segment, reply⟩], Nat.le_refl 1, ?_⟩
      rw [Step.afterPump, concludeSink, sinkHandOver, (Observed.offerIff.mp answer).2,
        Line.toListPush]

theorem afterOffers {p : Pump (Observed σ)} (latched : p.Latched) (events : List Event) :
    ∃ more, (p.after events).sink.offers.toList = p.sink.offers.toList ++ more := by
  induction events generalizing p with
  | nil => exact ⟨[], (List.append_nil _).symm⟩
  | cons e rest ih =>
    obtain ⟨first, -, record⟩ := reactOffers latched e
    obtain ⟨more, later⟩ := ih (reactLatched latched e)
    exact ⟨first ++ more, by rw [afterCons, later, record, List.append_assoc]⟩

theorem nextFailed {r : Run σ} {fault : Fault} (failed : r.result = .error fault)
    (events : List Event) : events.foldl Run.next r = r := by
  induction events with
  | nil => rfl
  | cons e rest ih =>
    have same : r.next e = r := by rw [Run.next, failed]
    rw [List.foldl_cons, same, ih]

theorem nextSame (events : List Event) {r s : Run σ} (pump : r.pump = s.pump)
    (result : r.result = s.result) :
    (events.foldl Run.next r).pump = (events.foldl Run.next s).pump ∧
      (events.foldl Run.next r).result = (events.foldl Run.next s).result := by
  induction events generalizing r s with
  | nil => exact ⟨pump, result⟩
  | cons e rest ih =>
    cases outcome : r.result with
    | error fault =>
      rw [nextFailed outcome, nextFailed (result ▸ outcome)]
      exact ⟨pump, result⟩
    | ok _ => apply ih <;> simp [Run.next, outcome, ← result, pump]

theorem feedFailed {p : Pump σ} {e : Event} {fault : Fault}
    (failed : (p.react e).result = .error fault) (rest : List Event) :
    (p.feed (e :: rest)).pump = (p.react e).pump ∧
      (p.feed (e :: rest)).result = .error fault := by
  have first : (Run.next { pump := p } e).result = .error fault := failed
  rw [feed, List.foldl_cons, nextFailed first]
  exact ⟨rfl, failed⟩

theorem feedOk {p : Pump σ} {e : Event} (ok : (p.react e).result = .ok ()) (rest : List Event) :
    (p.feed (e :: rest)).pump = ((p.react e).pump.feed rest).pump ∧
      (p.feed (e :: rest)).result = ((p.react e).pump.feed rest).result :=
  nextSame rest rfl ok

theorem feedAfter (p : Pump σ) (events : List Event) :
    ∃ count, (p.feed events).pump = p.after (events.take count) := by
  induction events generalizing p with
  | nil => exact ⟨0, rfl⟩
  | cons e rest ih =>
    cases result : (p.react e).result with
    | error fault => exact ⟨1, by simpa using (feedFailed result rest).1⟩
    | ok _ =>
      obtain ⟨count, later⟩ := ih (p.react e).pump
      exact ⟨count + 1, (feedOk result rest).1.trans later⟩

theorem feedWhole {p : Pump σ} {events : List Event} (ok : (p.feed events).result = .ok ()) :
    (p.feed events).pump = p.after events := by
  induction events generalizing p with
  | nil => rfl
  | cons e rest ih =>
    cases result : (p.react e).result with
    | error fault =>
      rw [(feedFailed result rest).2] at ok
      cases ok
    | ok _ =>
      obtain ⟨same, outcome⟩ := feedOk result rest
      rw [same, afterCons, ih (outcome.symm.trans ok)]

section

variable {f : σ → τ}
  (same : ∀ sink segment,
    Sink.offer (f sink) segment = ((Sink.offer sink segment).1, f (Sink.offer sink segment).2))
include same

theorem advanceWithSink (p : Pump σ) : (p.withSink f).advance = p.advance.withSink f := by
  by_cases clear : (p.ready && p.slot == .idle) = true
  · cases empty : p.backlog.isEmpty with
    | true => simp [advance, withSink, clear, empty, Step.withSink, Step.done]
    | false =>
      rcases popped : p.backlog.pop with ⟨_ | segment, backlog⟩
      · simp [advance, withSink, clear, empty, popped, Step.withSink, Step.fail]
      · rcases answer : Sink.offer p.sink segment with ⟨_ | refusal | _, sink⟩
        · simp [advance, withSink, clear, empty, popped, same, answer, Step.withSink, fill]
          rfl
        · simp [advance, withSink, clear, empty, popped, same, answer, Step.withSink, Step.fail]
        · simp [advance, withSink, clear, empty, popped, same, answer, Step.withSink, Step.fail]
  · simp [advance, withSink, clear, Step.withSink, Step.fail]

theorem applyWithSink (p : Pump σ) (e : Event) : (p.withSink f).apply e = (p.apply e).withSink f := by
  have advanced := advanceWithSink same
  cases e with
  | arrived segment =>
    have received : (p.withSink f).receive segment = (p.receive segment).withSink f := rfl
    simp only [apply, received]
    by_cases clear : ((p.receive segment).pump.ready && (p.receive segment).pump.slot == .idle) = true
    · rw [if_pos clear, if_pos (by exact clear)]
      exact congrArg (Step.after _) (advanced _)
    · rw [if_neg clear, if_neg (by exact clear)]
  | sinkReady =>
    have latched : (p.withSink f).latch = p.latch.withSink f := rfl
    simp only [apply, latched]
    by_cases idle : p.latch.pump.slot = .idle
    · rw [if_pos idle, if_pos (by exact idle)]
      exact congrArg (Step.after _) (advanced _)
    · rw [if_neg idle, if_neg (by exact idle)]
  | completed =>
    have slots : (p.withSink f).slot = p.slot := rfl
    cases slot : p.slot with
    | idle =>
      simp only [apply, slots, slot]
      rfl
    | inFlight =>
      simp only [apply, slots, slot]
      exact advanced p.release

theorem afterWithSink (p : Pump σ) (events : List Event) :
    (p.withSink f).after events = (p.after events).withSink f := by
  induction events generalizing p with
  | nil => rfl
  | cons e rest ih =>
    rw [afterCons, afterCons, reactPump, reactPump, applyWithSink same]
    exact ih _

end

end Pump
end SegmentPump
