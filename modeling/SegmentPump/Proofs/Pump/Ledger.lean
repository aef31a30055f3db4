import Mathlib.Data.List.Induction
import SegmentPump.Proofs.Pump.Course

/-! The books of a pump. After any course of events, and whatever the sink made
of its offers, they balance: what was offered and what waits are together what
arrived, nothing was offered before the latch was set, and the appends that the
sink accepted are the completed ones and the one under way. `offeredInOrder` is
what this means to whoever feeds the pump. -/
namespace SegmentPump.Pump

variable {σ : Type} [Sink σ]

/- `arrived`, `ready` and `done` sum up the events so far: the segments, whether
the sink became ready, and the completions that were taken. -/
structure Ledger (start : σ) (p : Pump (Observed σ)) (arrived : List Segment) (ready : Bool)
    (done : Nat) : Prop where
  faithful : p.sink.Faithful start
  conserved : p.sink.offered ++ p.waiting = arrived
  latch : p.ready = ready
  gated : p.ready = false → p.sink.offered = []
  latched : p.Latched
  balance : p.sink.appended.length = done + p.slot.load
  exact : p.backlog.Exact
  received : p.counters.segmentsReceived = arrived.length ∧
    p.counters.bytesReceived = totalSize arrived
  appended : p.counters.segmentsAppended = p.sink.appended.length ∧
    p.counters.bytesAppended = totalSize p.sink.appended
  completions : p.counters.completions = done

variable {start : σ} {p : Pump (Observed σ)} {arrived : List Segment} {ready : Bool} {done : Nat}

theorem ledgerNew (start : σ) (warnDepth : Nat) :
    Ledger start (observed start warnDepth) [] false 0 where
  faithful := rfl
  conserved := rfl
  latch := rfl
  gated _ := rfl
  latched busy := nomatch busy
  balance := rfl
  exact := Backlog.exactEmpty
  received := ⟨rfl, rfl⟩
  appended := ⟨rfl, rfl⟩
  completions := rfl

theorem ledgerEnter (books : Ledger start p arrived ready done) {e : Event}
    (expected : p.Expects e) :
    Ledger start (p.enter e).pump (arrived ++ e.arrivals) (ready || decide (e = .sinkReady))
      (done + e.completions) where
  faithful := by rw [enterSink]; exact books.faithful
  conserved := by rw [enterSink, enterWaiting, ← List.append_assoc, books.conserved]
  latch := by rw [enterReady, books.latch]
  gated := by
    intro unset
    rw [enterReady, Bool.or_eq_false_iff] at unset
    rw [enterSink]
    exact books.gated unset.1
  latched := enterLatched books.latched e
  balance := by
    have load := enterLoad expected
    have balance := books.balance
    rw [enterSink]
    omega
  exact := enterExact books.exact e
  received := by
    obtain ⟨count, bytes⟩ := books.received
    cases e <;> simp [enter, receive, latch, release, Event.arrivals, count, bytes]
  appended := by
    rw [enterSink]
    cases e <;> exact books.appended
  completions := by
    have count := books.completions
    cases e <;> simp [enter, receive, latch, release, Event.completions, count]

theorem ledgerOffer (books : Ledger start p arrived ready done) (clear : p.Clear)
    {segment : Segment} {rest : List Segment} {reply : Reply} {sink : Observed σ}
    (head : p.waiting = segment :: rest) (answer : Sink.offer p.sink segment = (reply, sink)) :
    Ledger start ((p.handOver segment rest sink).conclude segment reply).pump arrived ready done where
  faithful := by
    rw [concludeSink]
    exact Observed.faithfulSnoc books.faithful answer
  conserved := by
    have conserved := books.conserved
    rw [head] at conserved
    simp [Observed.offeredSnoc answer, ← conserved]
  latch := by rw [concludeReady]; exact books.latch
  gated unset := by
    rw [concludeReady, readyHandOver, clear.1] at unset
    cases unset
  latched _ := by rw [concludeReady]; exact clear.1
  balance := by
    have balance := books.balance
    rw [clear.2] at balance
    rw [concludeSink, sinkHandOver, Observed.appendedSnoc answer]
    cases reply <;> simpa [conclude, fill, Step.fail, handOver, clear.2, Slot.load] using balance
  exact := by
    rw [concludeBacklog]
    exact Backlog.exactRest books.exact head
  received := by cases reply <;> exact books.received
  appended := by
    obtain ⟨count, bytes⟩ := books.appended
    rw [concludeSink, sinkHandOver, Observed.appendedSnoc answer]
    cases reply <;> simp [conclude, fill, Step.fail, handOver, count, bytes]
  completions := by cases reply <;> exact books.completions

omit [Sink σ] in
theorem takenConclude (p : Pump (Observed σ)) (e : Event) (segment : Segment) (reply : Reply) :
    e.taken (p.conclude segment reply).result = e.completions := by
  cases reply <;> rfl

theorem ledgerReact (books : Ledger start p arrived ready done) (e : Event) :
    Ledger start (p.react e).pump (arrived ++ e.arrivals) (ready || decide (e = .sinkReady))
      (done + e.taken (p.react e).result) := by
  have way := applied books.latched e
  rw [reactPump, reactResult]
  generalize p.apply e = s at way ⊢
  cases way with
  | unexpected event idle =>
    subst event
    simpa [Event.arrivals, Event.taken] using books
  | held expected =>
    rw [enterResult]
    exact ledgerEnter books expected
  | advanced expected clear advance =>
    have entered := ledgerEnter books expected
    cases advance with
    | rest none => exact entered
    | offer head answer =>
      rw [Step.afterPump, Step.afterResult, takenConclude]
      exact ledgerOffer entered clear head answer

theorem reactSteady (steady : Sink.Steady start) (books : Ledger start p arrived ready done)
    (e : Event) : (p.react e).result = .ok () ∨ ∃ error, (p.react e).result = .error (.pump error) := by
  have way := applied books.latched e
  rw [reactResult]
  generalize p.apply e = s at way ⊢
  cases way with
  | unexpected => exact .inr ⟨_, rfl⟩
  | held => exact .inl (enterResult p e)
  | advanced expected clear advance =>
    cases advance with
    | rest => exact .inl rfl
    | @offer _ _ reply _ head answer =>
      rw [enterSink] at answer
      cases reply with
      | accepted => exact .inl rfl
      | refused refusal => exact .inr ⟨_, rfl⟩
      | crashed => exact absurd rfl (Observed.steadyAnswers steady books.faithful answer)

theorem feedSteady (steady : Sink.Steady start) (books : Ledger start p arrived ready done)
    (events : List Event) :
    (p.feed events).result = .ok () ∨ ∃ error, (p.feed events).result = .error (.pump error) := by
  induction events generalizing p arrived ready done with
  | nil => exact .inl rfl
  | cons e rest ih =>
    rcases reactSteady steady books e with ok | ⟨error, failed⟩
    · rw [(feedOk ok rest).2]
      exact ih (ledgerReact books e)
    · exact .inr ⟨error, (feedFailed failed rest).2⟩

theorem ledgerAfter (start : σ) (warnDepth : Nat) (events : List Event) :
    Ledger start ((observed start warnDepth).after events) (arrivals events)
      (decide (.sinkReady ∈ events)) ((observed start warnDepth).completed events) := by
  induction events using List.reverseRecOn with
  | nil => exact ledgerNew start warnDepth
  | append_singleton events e ih =>
    have next := ledgerReact ih e
    rw [afterSnoc, completedSnoc, arrivalsAppend, arrivalsOne]
    simpa [eq_comm] using next

/- A course is any beginning of a longer one, so this holds at every point. The
last two parts say whose record it is: that of the sink, unchanged by its being
observed. -/
theorem offeredInOrder (sink : σ) (warnDepth : Nat) (events : List Event) :
    let p := (observed sink warnDepth).after events
    p.sink.offered ++ p.waiting = arrivals events ∧
      (.sinkReady ∉ events → p.sink.offered = []) ∧
      Sink.offerAll sink p.sink.offered = (p.sink.offers.toList, p.sink.sink) ∧
      p.withSink Observed.sink = (new sink warnDepth).after events := by
  intro p
  have books := ledgerAfter sink warnDepth events
  refine ⟨books.conserved, ?_, books.faithful, ?_⟩
  · intro silent
    apply books.gated
    rw [books.latch]
    exact decide_eq_false silent
  · have same := afterWithSink (f := Observed.sink) (fun _ _ => rfl) (observed sink warnDepth) events
    exact same.symm

end SegmentPump.Pump
