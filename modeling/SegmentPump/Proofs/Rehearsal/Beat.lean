import SegmentPump.Proofs.Generator.Payload
import SegmentPump.Proofs.Pump.Reaction
import SegmentPump.Proofs.Trace.Law
import SegmentPump.Rehearsal.Basic

/-! A pump in front of a tape, and a driver that writes on the tape what the pump
is about to hear. One such beat goes one of four ways, which `Struck` lists. Tape
and slot are busy together after each of them, and as long as every segment
carries its number the tape tells what the pump is doing. -/
namespace SegmentPump

theorem Tape.answer {t after : Tape} {segment : Segment} {reply : Reply} (idle : t.busy = false)
    (answer : Sink.offer t segment = (reply, after)) :
    segment.sequence? = none ∧ reply = .refused .invalidState ∧ after = t ∨
      ∃ sequence, segment.sequence? = some sequence ∧ reply = .accepted ∧
        after = { t.record (.appended sequence) with
          busy := true, payloads := t.payloads.push segment } := by
  simp only [Sink.offer, idle] at answer
  cases number : segment.sequence? with
  | none =>
    simp only [number] at answer
    cases answer
    exact .inl ⟨rfl, rfl, rfl⟩
  | some sequence =>
    simp only [number] at answer
    cases answer
    exact .inr ⟨sequence, rfl, rfl, rfl⟩

inductive Beat
  | arrive (sequence : Nat) (segment : Segment)
  | ready
  | complete
  deriving DecidableEq

namespace Beat

@[simp] def event : Beat → Event
  | .arrive _ segment => .arrived segment
  | .ready => .sinkReady
  | .complete => .completed

@[simp] def writes : Beat → TraceEvent
  | .arrive sequence _ => .arrived sequence
  | .ready => .ready
  | .complete => .completed

def mark : Beat → Tape → Tape
  | .arrive sequence _ => Tape.record (.arrived sequence)
  | .ready => Tape.record .ready
  | .complete => fun tape => tape.complete.2

@[simp] def numbers : Beat → List Nat
  | .arrive sequence _ => [sequence]
  | _ => []

def Honest : Beat → Prop
  | .arrive sequence segment => segment.size < Header.size ∨ segment.sequence? = some sequence
  | _ => True

instance : DecidablePred Honest
  | .arrive sequence segment =>
    inferInstanceAs (Decidable (segment.size < Header.size ∨ segment.sequence? = some sequence))
  | .ready => .isTrue trivial
  | .complete => .isTrue trivial

def Long : Beat → Prop
  | .arrive _ segment => Header.size ≤ segment.size
  | _ => True

instance : DecidablePred Long
  | .arrive _ segment => inferInstanceAs (Decidable (Header.size ≤ segment.size))
  | .ready => .isTrue trivial
  | .complete => .isTrue trivial

theorem markTrace (b : Beat) (t : Tape) : (b.mark t).trace = t.trace ++ [b.writes] := by
  cases b <;> simp [mark, Tape.trace, Tape.record, Tape.complete]

theorem markBusy (b : Beat) (t : Tape) : (b.mark t).busy = Law.hold t.busy b.writes := by
  cases b <;> rfl

theorem eventComplete {b : Beat} : b.event = .completed ↔ b = .complete := by
  cases b <;> simp

theorem eventReady (b : Beat) : decide (b.event = .sinkReady) = decide (b.writes = .ready) := by
  cases b <;> simp

theorem arrivalsNumbered {b : Beat} (honest : b.Honest) (long : b.Long) :
    b.event.arrivals.map Segment.sequence? = b.numbers.map some := by
  cases b with
  | arrive sequence segment =>
    have numbered := honest.resolve_left (Nat.not_lt.mpr long)
    simpa [event, Event.arrivals, numbers] using numbered
  | ready => rfl
  | complete => rfl

end Beat

namespace Pump

def beat (p : Pump Tape) (b : Beat) : Step Tape := (p.mapSink b.mark).react b.event

def entered (p : Pump Tape) (b : Beat) : Pump Tape := ((p.mapSink b.mark).enter b.event).pump

def taken (p : Pump Tape) (segment : Segment) (sequence : Nat) (rest : List Segment) : Pump Tape :=
  ((p.handOver segment rest { p.sink.record (.appended sequence) with
      busy := true, payloads := p.sink.payloads.push segment }).fill segment).pump

inductive Struck (p : Pump Tape) (b : Beat) : Pump Tape → Except Fault Unit → Prop where
  | spurious (event : b = .complete) (idle : p.slot = .idle) :
      Struck p b (p.mapSink b.mark) (.error (.pump .unexpectedCompletion))
  | quiet (expected : b = .complete → p.slot = .inFlight)
      (worked : (p.entered b).Clear → (p.entered b).waiting = []) :
      Struck p b (p.entered b) (.ok ())
  | short {segment : Segment} {rest : List Segment} (expected : b = .complete → p.slot = .inFlight)
      (head : (p.entered b).waiting = segment :: rest) (short : segment.size < Header.size) :
      Struck p b ((p.entered b).handOver segment rest (p.entered b).sink)
        (.error (.pump (.sink .invalidState)))
  | taken {segment : Segment} {sequence : Nat} {rest : List Segment}
      (expected : b = .complete → p.slot = .inFlight) (clear : (p.entered b).Clear)
      (head : (p.entered b).waiting = segment :: rest)
      (number : segment.sequence? = some sequence) :
      Struck p b ((p.entered b).taken segment sequence rest) (.ok ())

structure InStep (p : Pump Tape) : Prop where
  latched : p.Latched
  busy : p.sink.busy = true ↔ p.slot = .inFlight
  held : p.sink.trace.foldl Law.hold false = p.sink.busy

variable {p : Pump Tape}

theorem idleSink (inStep : p.InStep) (idle : p.slot = .idle) : p.sink.busy = false := by
  rw [← Bool.not_eq_true, inStep.busy, idle]
  decide

theorem idleSlot (inStep : p.InStep) (idle : p.sink.busy = false) : p.slot = .idle := by
  cases slot : p.slot with
  | idle => rfl
  | inFlight =>
    rw [inStep.busy.mpr slot] at idle
    cases idle

theorem enteredSink (p : Pump Tape) (b : Beat) : (p.entered b).sink = b.mark p.sink :=
  enterSink _ _

theorem enteredInStep (inStep : p.InStep) (b : Beat) : (p.entered b).InStep where
  latched := by
    have latched : (p.mapSink b.mark).Latched := inStep.latched
    exact enterLatched latched b.event
  busy := by
    rw [enteredSink, Beat.markBusy]
    cases b with
    | arrive => exact inStep.busy
    | ready => exact inStep.busy
    | complete => exact ⟨nofun, nofun⟩
  held := by rw [enteredSink, Beat.markTrace, Beat.markBusy, List.foldl_concat, inStep.held]

theorem struck (inStep : p.InStep) (b : Beat) : Struck p b (p.beat b).pump (p.beat b).result := by
  have latched : (p.mapSink b.mark).Latched := inStep.latched
  have entered := enteredInStep inStep b
  have way := applied latched b.event
  rw [beat, reactPump, reactResult]
  generalize (p.mapSink b.mark).apply b.event = s at way ⊢
  have expects (expected : (p.mapSink b.mark).Expects b.event) : b = .complete → p.slot = .inFlight :=
    fun complete => expected (Beat.eventComplete.mpr complete)
  cases way with
  | unexpected event idle => exact .spurious (Beat.eventComplete.mp event) idle
  | held expected blocked =>
    rw [enterResult]
    exact .quiet (expects expected) fun clear => absurd clear blocked
  | advanced expected clear advance =>
    cases advance with
    | rest none => exact .quiet (expects expected) fun _ => none
    | offer head answer =>
      rcases Tape.answer (idleSink entered clear.2) answer with
        ⟨short, rfl, rfl⟩ | ⟨sequence, number, rfl, rfl⟩
      · exact .short (expects expected) head (Segment.sequenceNone.mp short)
      · exact .taken (expects expected) clear head number

@[simp] theorem takenTrace (p : Pump Tape) (segment : Segment) (sequence : Nat)
    (rest : List Segment) :
    (p.taken segment sequence rest).sink.trace = p.sink.trace ++ [.appended sequence] := by
  simp [taken, fill, Tape.trace, Tape.record]

@[simp] theorem takenWaiting (p : Pump Tape) (segment : Segment) (sequence : Nat)
    (rest : List Segment) : (p.taken segment sequence rest).waiting = rest := by
  simp [taken, fill, handOver, waiting, Backlog.toList]

theorem takenPayloads (p : Pump Tape) (segment : Segment) (sequence : Nat) (rest : List Segment) :
    (p.taken segment sequence rest).sink.payloads = p.sink.payloads.push segment :=
  rfl

theorem takenInStep (ready : p.ready = true) (segment : Segment) (sequence : Nat)
    (rest : List Segment) : (p.taken segment sequence rest).InStep where
  latched _ := ready
  busy := ⟨fun _ => rfl, fun _ => rfl⟩
  held := by rw [takenTrace, List.foldl_concat]; rfl

theorem struckInStep (inStep : p.InStep) {b : Beat} {q : Pump Tape} {result : Except Fault Unit}
    (struck : Struck p b q result) : q.InStep := by
  have entered := enteredInStep inStep b
  cases struck with
  | spurious event idle =>
    have sink : (p.mapSink b.mark).sink = (p.entered b).sink := (enteredSink p b).symm
    refine ⟨inStep.latched, ?_, ?_⟩
    · subst event
      have idle : (p.mapSink Beat.complete.mark).slot = .idle := idle
      rw [idle]
      exact ⟨nofun, nofun⟩
    · rw [sink]
      exact entered.held
  | quiet => exact entered
  | short => exact { entered with }
  | taken _ clear => exact takenInStep clear.1 _ _ _

theorem struckTrace {b : Beat} {q : Pump Tape} {result : Except Fault Unit}
    (struck : Struck p b q result) :
    ∃ numbers : List Nat, q.sink.trace = p.sink.trace ++ b.writes :: numbers.map .appended := by
  have entered : (p.entered b).sink.trace = p.sink.trace ++ [b.writes] := by
    rw [enteredSink, Beat.markTrace]
  cases struck with
  | spurious => exact ⟨[], Beat.markTrace b p.sink⟩
  | quiet => exact ⟨[], entered⟩
  | short => exact ⟨[], entered⟩
  | @taken _ sequence => exact ⟨[sequence], by simp [entered]⟩

theorem struckArrived {b : Beat} {q : Pump Tape} {result : Except Fault Unit}
    (struck : Struck p b q result) :
    q.sink.trace.arrived = p.sink.trace.arrived ++ b.numbers := by
  obtain ⟨appends, trace⟩ := struckTrace struck
  rw [trace, Trace.arrivedAppend, Trace.arrivedCons, Trace.arrivedAppends, List.append_nil]
  cases b <;> rfl

theorem beatReady (inStep : p.InStep) (b : Beat) :
    (p.beat b).pump.ready = (p.ready || decide (b = .ready)) := by
  have latched : (p.mapSink b.mark).Latched := inStep.latched
  rw [beat, reactReady latched]
  cases b <;> simp [mapSink]

theorem struckInFlight (inStep : p.InStep) {b : Beat} {q : Pump Tape} {result : Except Fault Unit}
    (struck : Struck p b q result) :
    Law.checkInFlight 0 false q.sink.trace =
      (Law.checkInFlight 0 false p.sink.trace).or
        (if b = .complete ∧ p.sink.busy = false then
          Law.blame .singleInFlight p.sink.trace.length "completion with no append in flight"
        else none) := by
  have marked : Law.checkInFlight 0 false (p.sink.trace ++ [b.writes]) =
      (Law.checkInFlight 0 false p.sink.trace).or
        (if b = .complete ∧ p.sink.busy = false then
          Law.blame .singleInFlight p.sink.trace.length "completion with no append in flight"
        else none) := by
    rw [Law.inFlightWatched.split, inStep.held, Nat.zero_add]
    cases b <;> cases busy : p.sink.busy <;> simp [Law.checkInFlight]
  have entered : (p.entered b).sink.trace = p.sink.trace ++ [b.writes] := by
    rw [enteredSink, Beat.markTrace]
  cases struck with
  | spurious =>
    rw [← marked]
    exact congrArg _ (Beat.markTrace b p.sink)
  | quiet => rw [entered, marked]
  | short => rw [sinkHandOver, entered, marked]
  | taken expected clear =>
    have idle := idleSink (enteredInStep inStep b) clear.2
    rw [takenTrace, Law.inFlightWatched.split, (enteredInStep inStep b).held, idle, entered, marked]
    simp [Law.checkInFlight]

structure Taped (p : Pump Tape) (numbers : List Nat) : Prop extends p.InStep where
  numbered : p.waiting.map Segment.sequence? = numbers.map some
  order : Law.checkOrdering 0 .empty p.sink.trace = none
  line : p.sink.trace.foldl Law.lineUp .empty = .ofList numbers
  gate : Law.checkGateFrom 0 false p.sink.trace = none
  unlocked : p.sink.trace.foldl Law.unlock false = p.ready

variable {numbers : List Nat}

theorem tapedLong (taped : p.Taped numbers) {segment : Segment} {rest : List Segment}
    (head : p.waiting = segment :: rest) : ¬ segment.size < Header.size := by
  intro short
  have numbered := taped.numbered
  rw [head, List.map_cons, Segment.sequenceNone.mpr short] at numbered
  cases numbers <;> simp at numbered

theorem tapedOrdered (taped : p.Taped numbers) :
    p.sink.trace.arrived = p.sink.trace.appended ++ numbers := by
  have accepted : Law.checkOrdering 0 (.ofList []) p.sink.trace = none := taped.order
  have line : p.sink.trace.foldl Law.lineUp (.ofList []) = .ofList numbers := taped.line
  simpa [line] using Law.lineUpOrdered accepted

theorem tapedMark {q : Pump Tape} (taped : p.Taped numbers) {b : Beat} (inStep : q.InStep)
    (numbered : q.waiting.map Segment.sequence? = (numbers ++ b.numbers).map some)
    (trace : q.sink.trace = p.sink.trace ++ [b.writes])
    (ready : q.ready = (p.ready || decide (b.writes = .ready))) : q.Taped (numbers ++ b.numbers) where
  toInStep := inStep
  numbered := numbered
  order := by
    rw [trace, Law.orderingWatched.split, taped.order]
    cases b <;> simp [Law.checkOrdering]
  line := by
    rw [trace, List.foldl_concat, taped.line]
    cases b <;> simp [Law.lineUp]
  gate := by
    rw [trace, Law.gateWatched.split, taped.gate]
    cases b <;> simp [Law.checkGateFrom, Law.checkGate]
  unlocked := by rw [trace, List.foldl_concat, taped.unlocked, ready, Law.unlock]

theorem tapedTake (taped : p.Taped numbers) (clear : p.Clear) {segment : Segment} {sequence : Nat}
    {rest : List Segment} (head : p.waiting = segment :: rest)
    (number : segment.sequence? = some sequence) :
    ∃ more, numbers = sequence :: more ∧ (p.taken segment sequence rest).Taped more := by
  have numbered := taped.numbered
  rw [head, List.map_cons, number] at numbered
  cases numbers with
  | nil => cases numbered
  | cons first more =>
    rw [List.map_cons, List.cons_eq_cons, Option.some_inj] at numbered
    obtain ⟨rfl, numbered⟩ := numbered
    refine ⟨more, rfl, takenInStep clear.1 _ _ _, ?_, ?_, ?_, ?_, ?_⟩
    · rw [takenWaiting, numbered]
    · rw [takenTrace, Law.orderingWatched.split, taped.order, taped.line]
      simp [Law.checkOrdering]
    · rw [takenTrace, List.foldl_concat, taped.line]
      simp [Law.lineUp]
    · rw [takenTrace, Law.gateWatched.split, taped.gate, taped.unlocked, clear.1]
      simp [Law.checkGateFrom]
    · rw [takenTrace, List.foldl_concat, taped.unlocked, clear.1]
      exact clear.1.symm

/- `worked` fails after a refusal, which takes a short segment. -/
structure Recorded (p : Pump Tape) (numbers : List Nat) : Prop extends p.Taped numbers where
  worked : p.Clear → p.waiting = []

end Pump
end SegmentPump
