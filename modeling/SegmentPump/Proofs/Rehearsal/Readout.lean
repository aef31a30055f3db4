import SegmentPump.Proofs.Rehearsal.Driven
import SegmentPump.Proofs.Trace.Blame

/-! What a tape tells of the pump before it. As long as the driver sends segments that
can be numbered and completes only what is under way, the statistics of the pump can be
read off the tape, whatever numbers are written on it: the counters count marks, and the
peak is the largest lead that the arrivals have had over the appends. -/
namespace SegmentPump

namespace Trace

/- The arrivals are `peak` ahead of the appends at some point of the trace, and never
more. -/
structure Peak (t : Trace) (peak : Nat) : Prop where
  bound : ∀ u : Trace, u <+: t → u.arrived.length ≤ u.appended.length + peak
  reached : ∃ u : Trace, u <+: t ∧ u.arrived.length = u.appended.length + peak

variable {t : Trace} {peak : Nat}

theorem peakNil : Peak [] 0 where
  bound u start := by
    rw [List.prefix_nil.mp start]
    exact Nat.le_refl 0
  reached := ⟨[], List.prefix_rfl, rfl⟩

theorem peakArrived (peaked : t.Peak peak) {lead : Nat}
    (ahead : t.arrived.length + 1 = t.appended.length + lead) (sequence : Nat) :
    Peak (t ++ [.arrived sequence]) (max peak lead) where
  bound u start := by
    rcases List.prefix_concat_iff.mp start with rfl | earlier
    · simp [TraceEvent.arrived?, TraceEvent.appended?]
      omega
    · have below := peaked.bound u earlier
      omega
  reached := by
    by_cases higher : peak ≤ lead
    · refine ⟨_, List.prefix_rfl, ?_⟩
      simp [TraceEvent.arrived?, TraceEvent.appended?]
      omega
    · obtain ⟨u, earlier, top⟩ := peaked.reached
      exact ⟨u, earlier.trans (List.prefix_append _ _), by omega⟩

theorem peakOther (peaked : t.Peak peak) {e : TraceEvent} (other : e.arrived? = none) :
    Peak (t ++ [e]) peak where
  bound u start := by
    rcases List.prefix_concat_iff.mp start with rfl | earlier
    · have below := peaked.bound t List.prefix_rfl
      simp [other]
      omega
    · exact peaked.bound u earlier
  reached := by
    obtain ⟨u, earlier, top⟩ := peaked.reached
    exact ⟨u, earlier.trans (List.prefix_append _ _), top⟩

theorem peakArrivals (peaked : t.Peak peak) : peak ≤ t.arrived.length := by
  obtain ⟨u, ⟨more, rfl⟩, top⟩ := peaked.reached
  rw [arrivedAppend, List.length_append]
  omega

end Trace

structure Stats.Told (s : Stats) (t : Tape) : Prop where
  received : s.segmentsReceived = t.trace.arrived.length
  appended : s.segmentsAppended = t.trace.appended.length
  completions : s.completions = t.trace.count .completed
  bytes : s.bytesAppended = totalSize t.payloads.toList
  depth : s.queueDepth + t.trace.appended.length = t.trace.arrived.length
  ready : s.sinkReady = true ↔ .ready ∈ t.trace
  slot : s.slot = .inFlight ↔ t.trace.appended.length = t.trace.count .completed + 1
  peak : t.trace.Peak s.peakQueueDepth

namespace Beat

theorem writesUnappended (b : Beat) : b.writes.appended? = none := by
  cases b <;> rfl

theorem writesArrivals (b : Beat) : b.writes.arrived?.toList.length = b.event.arrivals.length := by
  cases b <;> rfl

theorem writesCompletions (b : Beat) : [b.writes].count .completed = b.event.completions := by
  cases b <;> rfl

theorem arrivalsLong {b : Beat} (long : b.Long) :
    ∀ segment ∈ b.event.arrivals, Header.size ≤ segment.size := by
  cases b with
  | arrive sequence segment =>
    have enough : Header.size ≤ segment.size := long
    simpa [Event.arrivals] using enough
  | ready | complete => simp [Event.arrivals]

end Beat

namespace Pump

structure Tracked (p : Pump Tape) : Prop extends p.InStep where
  long : ∀ segment ∈ p.waiting, Header.size ≤ segment.size
  gated : p.ready = false → p.sink.trace.appended = []
  received : p.counters.segmentsReceived = p.sink.trace.arrived.length
  appended : p.counters.segmentsAppended = p.sink.trace.appended.length
  completions : p.counters.completions = p.sink.trace.count .completed
  bytes : p.counters.bytesAppended = totalSize p.sink.payloads.toList
  depth : p.waiting.length + p.sink.trace.appended.length = p.sink.trace.arrived.length
  readied : p.ready = decide (.ready ∈ p.sink.trace)
  balance : p.counters.segmentsAppended = p.counters.completions + p.slot.load
  peak : p.sink.trace.Peak p.counters.peakDepth

variable {p : Pump Tape}

theorem newTracked (warnDepth : Nat) : (new ({} : Tape) warnDepth).Tracked where
  toInStep := newInStep warnDepth
  long := nofun
  gated _ := rfl
  received := rfl
  appended := rfl
  completions := rfl
  bytes := rfl
  depth := rfl
  readied := rfl
  balance := rfl
  peak := Trace.peakNil

theorem trackedTold (tracked : p.Tracked) : p.stats.Told p.sink where
  received := tracked.received
  appended := tracked.appended
  completions := tracked.completions
  bytes := tracked.bytes
  depth := by
    have size : p.stats.queueDepth = p.waiting.length := Backlog.sizeToList p.backlog
    rw [size]
    exact tracked.depth
  ready := by
    rw [show p.stats.sinkReady = p.ready from rfl, tracked.readied]
    exact decide_eq_true_iff
  slot := by
    have balance := tracked.balance
    rw [tracked.appended, tracked.completions] at balance
    rw [show p.stats.slot = p.slot from rfl, balance]
    cases p.slot <;> simp [Slot.load]
  peak := tracked.peak

theorem enteredPeak (tracked : p.Tracked) (b : Beat) :
    (p.entered b).sink.trace.Peak (p.entered b).counters.peakDepth := by
  have lead : p.sink.trace.arrived.length + 1 =
      p.sink.trace.appended.length + (p.waiting.length + 1) := by
    rw [← tracked.depth]
    omega
  rw [enteredSink, Beat.markTrace, entered, enterCounters]
  cases b with
  | arrive sequence segment => exact Trace.peakArrived tracked.peak lead sequence
  | ready => exact Trace.peakOther tracked.peak rfl
  | complete => exact Trace.peakOther tracked.peak rfl

theorem enteredTracked (tracked : p.Tracked) {b : Beat} (long : b.Long)
    (expected : b = .complete → p.slot = .inFlight) : (p.entered b).Tracked := by
  have trace : (p.entered b).sink.trace = p.sink.trace ++ [b.writes] := by
    rw [enteredSink, Beat.markTrace]
  have appended : (p.entered b).sink.trace.appended = p.sink.trace.appended := by
    rw [trace, Trace.appendedAppend, Trace.appendedOne, b.writesUnappended, Option.toList_none,
      List.append_nil]
  have arrived : (p.entered b).sink.trace.arrived.length =
      p.sink.trace.arrived.length + b.event.arrivals.length := by
    rw [trace, Trace.arrivedAppend, List.length_append, Trace.arrivedOne, b.writesArrivals]
  have waiting : (p.entered b).waiting = p.waiting ++ b.event.arrivals := enterWaiting _ _
  have ready : (p.entered b).ready = (p.ready || decide (b.event = .sinkReady)) := enterReady _ _
  have appends : (p.entered b).counters.segmentsAppended = p.counters.segmentsAppended := by
    rw [entered, enterCounters]
    rfl
  have completes : (p.entered b).counters.completions =
      p.counters.completions + b.event.completions := by
    rw [entered, enterCounters]
    rfl
  have slots : (p.entered b).slot.load + b.event.completions = p.slot.load :=
    enterLoad (p := p.mapSink b.mark) fun event => expected (Beat.eventComplete.mp event)
  refine { enteredInStep tracked.toInStep b with
    long := ?_, gated := ?_, received := ?_, appended := ?_, completions := ?_, bytes := ?_
    depth := ?_, readied := ?_, balance := ?_, peak := enteredPeak tracked b }
  · intro segment member
    rw [waiting] at member
    rcases List.mem_append.mp member with before | now
    · exact tracked.long segment before
    · exact Beat.arrivalsLong long segment now
  · intro unset
    rw [ready, Bool.or_eq_false_iff] at unset
    rw [appended]
    exact tracked.gated unset.1
  · rw [arrived, ← tracked.received, entered, enterCounters]
    rfl
  · rw [appended, appends, tracked.appended]
  · rw [trace, List.count_append, b.writesCompletions, completes, tracked.completions]
  · rw [enteredSink, entered, enterCounters]
    cases b <;> exact tracked.bytes
  · have depth := tracked.depth
    rw [waiting, appended, arrived, List.length_append]
    omega
  · rw [ready, tracked.readied, trace]
    cases b <;> simp
  · have balance := tracked.balance
    rw [appends, completes]
    omega

theorem takenCounters (p : Pump Tape) (segment : Segment) (sequence : Nat) (rest : List Segment) :
    (p.taken segment sequence rest).counters =
      { p.counters with
        segmentsAppended := p.counters.segmentsAppended + 1
        bytesAppended := p.counters.bytesAppended + segment.size } :=
  rfl

theorem takenTracked (tracked : p.Tracked) (clear : p.Clear) {segment : Segment} {sequence : Nat}
    {rest : List Segment} (head : p.waiting = segment :: rest) :
    (p.taken segment sequence rest).Tracked := by
  have depth := tracked.depth
  have balance := tracked.balance
  rw [head, List.length_cons] at depth
  rw [clear.2, Slot.load] at balance
  have ready : (p.taken segment sequence rest).ready = p.ready := rfl
  have slot : (p.taken segment sequence rest).slot = .inFlight := rfl
  refine { takenInStep clear.1 segment sequence rest with
    long := ?_, gated := ?_, received := ?_, appended := ?_, completions := ?_, bytes := ?_
    depth := ?_, readied := ?_, balance := ?_, peak := ?_ }
  · intro other member
    rw [takenWaiting] at member
    exact tracked.long other (head ▸ List.mem_cons_of_mem segment member)
  · intro unset
    exact absurd (clear.1.symm.trans unset) (by decide)
  · rw [takenCounters, takenTrace]
    simpa [TraceEvent.arrived?] using tracked.received
  · rw [takenCounters, takenTrace]
    simpa [TraceEvent.appended?] using tracked.appended
  · rw [takenCounters, takenTrace]
    simpa using tracked.completions
  · rw [takenCounters, takenPayloads, Line.toListPush, totalSizeAppend, totalSizeCons, totalSizeNil,
      ← tracked.bytes]
    rfl
  · rw [takenWaiting, takenTrace]
    simp [TraceEvent.arrived?, TraceEvent.appended?]
    omega
  · rw [ready, takenTrace]
    simpa using tracked.readied
  · rw [takenCounters, slot, Slot.load, balance]
  · rw [takenCounters, takenTrace]
    exact Trace.peakOther tracked.peak rfl

theorem beatTracked (tracked : p.Tracked) {b : Beat} (long : b.Long)
    (legal : ¬ (b = .complete ∧ p.sink.busy = false)) : (p.beat b).pump.Tracked := by
  have expected (complete : b = .complete) : p.slot = .inFlight := by
    refine tracked.busy.mp ?_
    rw [← Bool.not_eq_false]
    exact fun idle => legal ⟨complete, idle⟩
  have entered := enteredTracked tracked long expected
  have way := struck tracked.toInStep b
  generalize (p.beat b).pump = q, (p.beat b).result = result at way ⊢
  cases way with
  | spurious event idle => cases idle.symm.trans (expected event)
  | quiet => exact entered
  | @short segment _ _ head short =>
    have member : segment ∈ (p.entered b).waiting := head ▸ List.mem_cons_self
    exact absurd short (Nat.not_lt.mpr (entered.long segment member))
  | taken _ clear head => exact takenTracked entered clear head

theorem beatsTracked (tracked : p.Tracked) {bs : List Beat} (long : ∀ b ∈ bs, b.Long)
    (legal : ∀ before, ¬ p.Refused bs before) : (p.beats bs).Tracked := by
  induction bs using List.reverseRecOn with
  | nil => exact tracked
  | append_singleton before b ih =>
    have earlier := ih (fun b member => long b (List.mem_append_left _ member))
      fun start refused => legal start ((refusedConcat ..).mpr (.inl refused))
    rw [beatsConcat]
    refine beatTracked earlier (long b (by simp)) fun ⟨complete, idle⟩ => ?_
    exact legal before ((refusedConcat ..).mpr (.inr ⟨rfl, complete, idle⟩))

theorem peakUnready (fresh : p.Tracked) (empty : p.sink.trace = []) (closed : p.ready = false)
    {before after : List Beat} (long : ∀ b ∈ before ++ after, b.Long)
    (legal : ∀ start, ¬ p.Refused (before ++ after) start) (unready : .ready ∉ before)
    (quiet : after.flatMap Beat.numbers = []) :
    (p.beats (before ++ after)).counters.peakDepth =
      ((before ++ after).flatMap Beat.numbers).length := by
  have whole := beatsTracked fresh long legal
  have first : (p.beats before).Tracked := by
    refine beatsTracked fresh (fun b member => long b (List.mem_append_left _ member)) ?_
    rintro start ⟨idle, rest, rfl⟩
    exact legal start ⟨idle, rest ++ after, by simp⟩
  have shut : (p.beats before).ready = false := by
    rw [beatsReady fresh.toInStep, closed, decide_eq_false unready]
    rfl
  have nothing := first.gated shut
  have arrived := beatsArrived fresh.toInStep before
  have arrivedAll := beatsArrived fresh.toInStep (before ++ after)
  rw [empty] at arrived arrivedAll
  have start : (p.beats before).sink.trace <+: (p.beats (before ++ after)).sink.trace := by
    obtain ⟨more, trace⟩ := beatsTrace first.toInStep after
    rw [beatsAppend, trace]
    exact List.prefix_append _ _
  have above := whole.peak.bound _ start
  have below := Trace.peakArrivals whole.peak
  rw [arrived, nothing] at above
  rw [arrivedAll] at below
  rw [List.flatMap_append, quiet, List.append_nil] at below ⊢
  exact Nat.le_antisymm below (by simpa [Trace.arrived] using above)

/- The tape need not be believed: any number may be written for any segment. -/
theorem tapeTellsStats (warnDepth : Nat) (bs : List Beat) (long : ∀ b ∈ bs, b.Long)
    (legal : ∀ before, ¬ (new ({} : Tape) warnDepth).Refused bs before) :
    let p := (new ({} : Tape) warnDepth).beats bs
    p.stats.Told p.sink ∧
      p.sink.trace.arrived = bs.flatMap Beat.numbers ∧
      ∀ before after, bs = before ++ after → .ready ∉ before → after.flatMap Beat.numbers = [] →
        p.stats.peakQueueDepth = (bs.flatMap Beat.numbers).length := by
  intro p
  have fresh := newTracked warnDepth
  refine ⟨trackedTold (beatsTracked fresh long legal), beatsArrived fresh.toInStep bs, ?_⟩
  rintro before after rfl unready quiet
  exact peakUnready fresh rfl rfl long legal unready quiet

/- The numbers on the tape are not those of the segments, and the second readiness comes
while an append is under way. -/
theorem tapeTellsStatsBacklog :
    let segment : Segment := ⟨⟨#[0, 0, 0, 0, 0, 0, 0, 5]⟩⟩
    let before : List Beat := [.arrive 3 segment, .arrive 3 segment]
    let after : List Beat := [.ready, .ready, .complete]
    let p := (new ({} : Tape) 1).beats (before ++ after)
    (∀ b ∈ before ++ after, b.Long) ∧ (∀ start, ¬ (new ({} : Tape) 1).Refused (before ++ after) start) ∧
      .ready ∉ before ∧ after.flatMap Beat.numbers = [] ∧ p.stats.peakQueueDepth = 2 ∧
      p.stats.Told p.sink := by
  intro segment before after p
  have long : ∀ b ∈ before ++ after, b.Long := by decide
  have legal : ∀ start, ¬ (new ({} : Tape) 1).Refused (before ++ after) start :=
    (beatsInFlight (newInStep 1) rfl _).mp (by decide)
  have unready : .ready ∉ before := by decide
  have quiet : after.flatMap Beat.numbers = [] := by decide
  obtain ⟨told, _, peak⟩ := tapeTellsStats 1 (before ++ after) long legal
  exact ⟨long, legal, unready, quiet, peak before after rfl unready quiet, told⟩

end Pump
end SegmentPump
