import SegmentPump.Proofs.Pump.Ledger

/-! What can go wrong with a pump, and what it leaves behind. An append is never
called for out of turn and never without a segment to offer, so that two failures
are left that a pump can report: a completion of nothing, which leaves everything as
it was, and a refusal, which costs the segment that was offered and nothing else. -/
namespace SegmentPump

variable {σ : Type}

def Notice.warns : Notice → Bool
  | .backingUp .. => true
  | _ => false

namespace Pump

def Deepens (p : Pump σ) (e : Event) : Prop :=
  e.arrivals ≠ [] ∧ p.warnDepth ≤ p.waiting.length + 1

instance (p : Pump σ) (e : Event) : Decidable (p.Deepens e) :=
  inferInstanceAs (Decidable (_ ∧ _))

theorem enterArmed (p : Pump σ) (e : Event) :
    (p.enter e).pump.armed = (p.armed && !decide (p.Deepens e)) := by
  cases e with
  | arrived segment =>
    cases armed : p.armed <;> simp [enter, receive, pushDepth, Deepens, Event.arrivals, armed]
  | sinkReady => simp [enter, latch, Deepens, Event.arrivals]
  | completed => simp [enter, release, Deepens, Event.arrivals]

theorem enterWarns (p : Pump σ) (e : Event) :
    (p.enter e).notices.filter Notice.warns =
      if p.armed = true ∧ p.Deepens e then
        [.backingUp (p.waiting.length + 1) (p.backlog.bytes + totalSize e.arrivals) p.ready]
      else [] := by
  cases e with
  | arrived segment =>
    have bytes : (p.backlog.push segment).bytes = p.backlog.bytes + segment.size := rfl
    by_cases deep : p.armed = true ∧ p.warnDepth ≤ p.waiting.length + 1
    · simp [enter, receive, pushDepth, Deepens, Event.arrivals, deep, Notice.warns, bytes]
    · simp [enter, receive, pushDepth, Deepens, Event.arrivals, deep]
  | sinkReady =>
    cases ready : p.ready <;> simp [enter, latch, Deepens, Event.arrivals, ready, Notice.warns]
  | completed => simp [enter, Step.done, Deepens, Event.arrivals]

variable [Sink σ]

inductive Failed (p : Pump σ) (e : Event) : Step σ → Prop where
  | unexpected (event : e = .completed) (idle : p.slot = .idle) :
      Failed p e ((Step.fail p (.pump .unexpectedCompletion)).after [.completionNeverIssued])
  | lost {segment rest reply sink} (unaccepted : reply ≠ .accepted) (clear : (p.enter e).pump.Clear)
      (head : p.waiting ++ e.arrivals = segment :: rest)
      (answer : Sink.offer p.sink segment = (reply, sink)) :
      Failed p e ((((p.enter e).pump.handOver segment rest sink).conclude segment reply).after
        (p.enter e).notices)

theorem reactFailed {p : Pump σ} (latched : p.Latched) {e : Event} {fault : Fault}
    (failed : (p.react e).result = .error fault) : Failed p e (p.apply e) := by
  have way := applied latched e
  rw [reactResult] at failed
  generalize p.apply e = s at way failed ⊢
  cases way with
  | unexpected event idle => exact .unexpected event idle
  | held =>
    rw [enterResult] at failed
    cases failed
  | advanced _ clear advance =>
    cases advance with
    | rest => cases failed
    | @offer _ _ reply _ head answer =>
      rw [enterWaiting] at head
      rw [enterSink] at answer
      have unaccepted : reply ≠ .accepted := by
        rintro rfl
        cases failed
      exact .lost unaccepted clear head answer

theorem failedFault {p : Pump σ} (latched : p.Latched) {e : Event} {fault : Fault}
    (failed : (p.react e).result = .error fault) :
    fault = .pump .unexpectedCompletion ∨ (∃ refusal, fault = .pump (.sink refusal)) ∨
      fault = .sinkCrashed := by
  have way := reactFailed latched failed
  rw [reactResult] at failed
  generalize p.apply e = s at way failed
  cases way with
  | unexpected => exact .inl (Except.error.inj failed).symm
  | @lost _ _ reply _ unaccepted =>
    cases reply with
    | accepted => exact absurd rfl unaccepted
    | refused refusal => exact .inr (.inl ⟨refusal, (Except.error.inj failed).symm⟩)
    | crashed => exact .inr (.inr (Except.error.inj failed).symm)

/- A refusal leaves the slot free with segments still waiting, and the next call may
come from any kind of event, so that this is about every event at every point. -/
theorem neverMisused (sink : σ) (warnDepth : Nat) (events : List Event) :
    let p := (new sink warnDepth).after events
    (p.slot = .inFlight → p.ready = true) ∧
      (p.ready = true → ∀ later, (p.after later).ready = true) ∧
      ∀ e,
        (p.Calls e →
          ((p.enter e).pump.ready = true ∧ (p.enter e).pump.slot = .idle) ∧
            (p.react e).pump = (p.enter e).pump.advance.pump ∧
            (p.react e).result = (p.enter e).pump.advance.result) ∧
        (¬ p.Calls e → (p.react e).pump.sink = p.sink) ∧
        (p.react e).result ≠ .error .misuse ∧
        ∀ error, (p.react e).result ≠ .error (.pump (.queue error)) := by
  intro p
  have latched : p.Latched := afterLatched (newLatched sink warnDepth) events
  refine ⟨latched, fun ready later => afterReady latched ready later, fun e => ⟨?_, ?_, ?_, ?_⟩⟩
  · exact fun calls => ⟨callsClear latched calls, reactCalled calls⟩
  · exact reactUncalled
  · exact reactProper latched e
  · intro error failed
    rcases failedFault latched failed with same | ⟨refusal, same⟩ | same <;> cases same

theorem neverMisusedRefused :
    let p := (new ({ cues := [.refuse .closed] } : Script) 1).after
      [.arrived ⟨⟨#[1]⟩⟩, .arrived ⟨⟨#[2]⟩⟩, .sinkReady, .completed, .arrived ⟨⟨#[3]⟩⟩]
    p.slot = .inFlight ∧ p.ready = true ∧ p.Calls .completed ∧
      (p.enter .completed).pump.ready = true ∧ (p.enter .completed).pump.slot = .idle := by
  intro p
  obtain ⟨latched, _, calls⟩ := neverMisused ({ cues := [.refuse .closed] } : Script) 1
    [.arrived ⟨⟨#[1]⟩⟩, .arrived ⟨⟨#[2]⟩⟩, .sinkReady, .completed, .arrived ⟨⟨#[3]⟩⟩]
  have busy : p.slot = .inFlight := by decide
  exact ⟨busy, latched busy, busy, ((calls .completed).1 busy).1⟩

/- `segment` was at the head of the line, the event's own arrival included, and the
sink refused it. What the event does by itself is done, and the append is not. -/
structure Forfeits (p : Pump (Observed σ)) (e : Event) (segment : Segment) (refusal : Refusal)
    (s : Step (Observed σ)) : Prop where
  head : p.waiting ++ e.arrivals = segment :: s.pump.waiting
  offered : s.pump.sink.offers = p.sink.offers.push ⟨segment, .refused refusal⟩
  answer : Sink.offer p.sink.sink segment = (.refused refusal, s.pump.sink.sink)
  bytes : s.pump.backlog.bytes + segment.size = p.backlog.bytes + totalSize e.arrivals
  idle : s.pump.slot = .idle
  latch : s.pump.ready = (p.ready || decide (e = .sinkReady))
  warnDepth : s.pump.warnDepth = p.warnDepth
  armed : s.pump.armed = (p.armed && !decide (p.Deepens e))
  warned : s.notices.filter Notice.warns =
    if p.armed = true ∧ p.Deepens e then
      [.backingUp (p.waiting.length + 1) (p.backlog.bytes + totalSize e.arrivals) p.ready]
    else []
  counters : s.pump.counters =
    { p.counters with
      segmentsReceived := p.counters.segmentsReceived + e.arrivals.length
      bytesReceived := p.counters.bytesReceived + totalSize e.arrivals
      completions := p.counters.completions + e.completions
      peakDepth := if e.arrivals = [] then p.counters.peakDepth
        else max p.counters.peakDepth (p.waiting.length + 1) }

omit [Sink σ] in
theorem enterWarnDepth (p : Pump σ) (e : Event) : (p.enter e).pump.warnDepth = p.warnDepth := by
  cases e <;> rfl

omit [Sink σ] in
theorem enterBytes (p : Pump σ) (e : Event) :
    (p.enter e).pump.backlog.bytes = p.backlog.bytes + totalSize e.arrivals := by
  cases e <;> rfl

theorem refusedForfeits {p : Pump (Observed σ)} {e : Event} {segment : Segment}
    {rest : List Segment} {refusal : Refusal} {sink : Observed σ} (exact : p.backlog.Exact)
    (clear : (p.enter e).pump.Clear) (head : p.waiting ++ e.arrivals = segment :: rest)
    (answer : Sink.offer p.sink segment = (.refused refusal, sink)) :
    p.Forfeits e segment refusal
      (((((p.enter e).pump.handOver segment rest sink).conclude segment (.refused refusal)).after
        (p.enter e).notices).after [.handling e.name p.slot p.backlog.size]) where
  head := by simpa using head
  offered := (Observed.offerIff.mp answer).2
  answer := (Observed.offerIff.mp answer).1
  bytes := by
    have contents : (p.enter e).pump.backlog.toList = segment :: rest := (enterWaiting p e).trans head
    have popped := Backlog.popBytes (enterExact exact e) (Backlog.popCons contents)
    exact popped.trans (enterBytes p e)
  idle := clear.2
  latch := enterReady p e
  warnDepth := enterWarnDepth p e
  armed := enterArmed p e
  warned := by
    have warns := enterWarns p e
    simpa [Step.after, conclude, Step.fail, Notice.warns] using warns
  counters := enterCounters p e

theorem failureExact (sink : σ) (warnDepth : Nat) (events : List Event) (e : Event)
    (error : PumpError)
    (failed : (((observed sink warnDepth).after events).react e).result = .error (.pump error)) :
    let p := (observed sink warnDepth).after events
    (error = .unexpectedCompletion ∧ e = .completed ∧ p.slot = .idle ∧ (p.react e).pump = p) ∨
      ∃ refusal segment, error = .sink refusal ∧ p.Forfeits e segment refusal (p.react e) := by
  intro p
  have books := ledgerAfter sink warnDepth events
  have way := reactFailed books.latched failed
  rw [reactResult] at failed
  rw [reactPump, react]
  generalize p.apply e = s at way failed ⊢
  cases way with
  | unexpected event idle =>
    cases failed
    exact .inl ⟨rfl, event, idle, rfl⟩
  | @lost segment _ reply _ _ clear head answer =>
    cases reply with
    | accepted => cases failed
    | refused refusal =>
      cases failed
      exact .inr ⟨refusal, segment, rfl, refusedForfeits books.exact clear head answer⟩
    | crashed => cases failed

/- The second refusal, after an earlier one and a completion of nothing. The segment
that is lost is not the one that arrives. -/
theorem failureExactArrival :
    let p := (observed ({ cues := [.refuse .closed, .refuseSize] } : Script) 3).after
      [.arrived ⟨⟨#[1]⟩⟩, .arrived ⟨⟨#[2, 3]⟩⟩, .sinkReady, .completed]
    let s := p.react (.arrived ⟨⟨#[4]⟩⟩)
    s.result = .error (.pump (.sink (.quotaExceeded 2))) ∧
      p.Forfeits (.arrived ⟨⟨#[4]⟩⟩) ⟨⟨#[2, 3]⟩⟩ (.quotaExceeded 2) s := by
  intro p s
  have failed : s.result = .error (.pump (.sink (.quotaExceeded 2))) := by decide
  refine ⟨failed, ?_⟩
  rcases failureExact ({ cues := [.refuse .closed, .refuseSize] } : Script) 3
      [.arrived ⟨⟨#[1]⟩⟩, .arrived ⟨⟨#[2, 3]⟩⟩, .sinkReady, .completed] (.arrived ⟨⟨#[4]⟩⟩) _ failed
    with ⟨other, _⟩ | ⟨refusal, segment, same, left⟩
  · cases other
  · have line : p.waiting ++ Event.arrivals (.arrived ⟨⟨#[4]⟩⟩) = [⟨⟨#[2, 3]⟩⟩, ⟨⟨#[4]⟩⟩] := by decide
    cases same
    cases (List.cons_eq_cons.mp (left.head.symm.trans line)).1
    exact left

end Pump
end SegmentPump
