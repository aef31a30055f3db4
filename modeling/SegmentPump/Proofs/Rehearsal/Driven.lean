import Mathlib.Data.List.Induction
import SegmentPump.Proofs.Rehearsal.Beat

/-! Beat after beat, whatever the driver thinks of: it may complete what nobody
appended, repeat itself, send segments too short to carry a number, and it goes on
after an error. -/
namespace SegmentPump

namespace Pump

def beats (p : Pump Tape) (bs : List Beat) : Pump Tape := bs.foldl (fun p b => (p.beat b).pump) p

theorem beatsConcat (p : Pump Tape) (bs : List Beat) (b : Beat) :
    p.beats (bs ++ [b]) = ((p.beats bs).beat b).pump :=
  List.foldl_concat _ _ _ _

theorem beatsAppend (p : Pump Tape) (bs cs : List Beat) :
    p.beats (bs ++ cs) = (p.beats bs).beats cs :=
  List.foldl_append

variable {p : Pump Tape}

theorem newInStep (warnDepth : Nat) : (new ({} : Tape) warnDepth).InStep where
  latched busy := nomatch busy
  busy := ⟨nofun, nofun⟩
  held := rfl

theorem beatsInStep (inStep : p.InStep) (bs : List Beat) : (p.beats bs).InStep := by
  induction bs using List.reverseRecOn with
  | nil => exact inStep
  | append_singleton before b ih =>
    rw [beatsConcat]
    exact struckInStep ih (struck ih b)

theorem beatsTrace (inStep : p.InStep) (bs : List Beat) :
    ∃ more, (p.beats bs).sink.trace = p.sink.trace ++ more := by
  induction bs using List.reverseRecOn with
  | nil => exact ⟨[], (List.append_nil _).symm⟩
  | append_singleton before b ih =>
    obtain ⟨more, ih⟩ := ih
    obtain ⟨numbers, trace⟩ := struckTrace (struck (beatsInStep inStep before) b)
    exact ⟨more ++ b.writes :: numbers.map .appended, by rw [beatsConcat, trace, ih, List.append_assoc]⟩

theorem beatsReady (inStep : p.InStep) (bs : List Beat) :
    (p.beats bs).ready = (p.ready || decide (.ready ∈ bs)) := by
  induction bs using List.reverseRecOn with
  | nil => simp [beats]
  | append_singleton before b ih =>
    rw [beatsConcat, beatReady (beatsInStep inStep before), ih]
    cases b <;> simp

theorem beatsArrived (inStep : p.InStep) (bs : List Beat) :
    (p.beats bs).sink.trace.arrived = p.sink.trace.arrived ++ bs.flatMap Beat.numbers := by
  induction bs using List.reverseRecOn with
  | nil => simp [beats]
  | append_singleton before b ih =>
    rw [beatsConcat, struckArrived (struck (beatsInStep inStep before) b), ih]
    simp

theorem completionRefused (inStep : p.InStep) (b : Beat) :
    b = .complete ∧ p.sink.complete.1 = false ↔
      (p.beat b).result = .error (.pump .unexpectedCompletion) := by
  have way := struck inStep b
  have lost (expected : b = .complete → p.slot = .inFlight) :
      ¬ (b = .complete ∧ p.sink.complete.1 = false) := fun ⟨complete, idle⟩ => by
    have busy : p.sink.complete.1 = true := inStep.busy.mpr (expected complete)
    rw [busy] at idle
    cases idle
  generalize (p.beat b).pump = q, (p.beat b).result = result at way ⊢
  cases way with
  | spurious event idle => exact ⟨fun _ => rfl, fun _ => ⟨event, idleSink inStep idle⟩⟩
  | quiet expected => exact ⟨fun refused => absurd refused (lost expected), nofun⟩
  | short expected => exact ⟨fun refused => absurd refused (lost expected), nofun⟩
  | taken expected => exact ⟨fun refused => absurd refused (lost expected), nofun⟩

theorem faultShort (inStep : p.InStep) {b : Beat} {fault : Fault}
    (failed : (p.beat b).result = .error fault) (other : fault ≠ .pump .unexpectedCompletion) :
    fault = .pump (.sink .invalidState) ∧ ∃ segment rest,
      p.waiting ++ b.event.arrivals = segment :: rest ∧ segment.size < Header.size := by
  have way := struck inStep b
  have waiting : (p.entered b).waiting = p.waiting ++ b.event.arrivals := enterWaiting _ _
  generalize (p.beat b).pump = q, (p.beat b).result = result at way failed
  cases way with
  | spurious => cases failed; exact absurd rfl other
  | quiet => cases failed
  | @short segment rest _ head short =>
    cases failed
    exact ⟨rfl, segment, rest, waiting.symm.trans head, short⟩
  | taken => cases failed

/- The completion that follows on `before` finds no append under way. -/
def Refused (p : Pump Tape) (bs before : List Beat) : Prop :=
  (p.beats before).sink.complete.1 = false ∧ ∃ after, bs = before ++ .complete :: after

theorem refusedConcat (bs : List Beat) (b : Beat) (before : List Beat) :
    p.Refused (bs ++ [b]) before ↔
      p.Refused bs before ∨ before = bs ∧ b = .complete ∧ (p.beats bs).sink.busy = false := by
  constructor
  · rintro ⟨idle, after, split⟩
    rcases List.eq_nil_or_concat after with rfl | ⟨after, last, rfl⟩
    · obtain ⟨rfl, last⟩ := List.append_inj' split rfl
      exact .inr ⟨rfl, (List.cons_eq_cons.mp last).1, idle⟩
    · rw [List.concat_eq_append, ← List.cons_append, ← List.append_assoc] at split
      exact .inl ⟨idle, after, (List.append_inj' split rfl).1⟩
  · rintro (⟨idle, after, rfl⟩ | ⟨rfl, rfl, idle⟩)
    · exact ⟨idle, after ++ [b], by simp⟩
    · exact ⟨idle, [], rfl⟩

theorem beatsInFlight (inStep : p.InStep) (fresh : Law.checkInFlight 0 false p.sink.trace = none)
    (bs : List Beat) :
    Law.singleInFlight.check (p.beats bs).sink.trace = none ↔ ∀ before, ¬ p.Refused bs before := by
  induction bs using List.reverseRecOn with
  | nil =>
    have never (before : List Beat) : ¬ p.Refused [] before := fun ⟨_, _, split⟩ => by simp at split
    exact ⟨fun _ => never, fun _ => fresh⟩
  | append_singleton bs b ih =>
    have step := beatsInStep inStep bs
    rw [Law.check] at ih ⊢
    rw [beatsConcat, struckInFlight step (struck step b), Option.or_eq_none_iff, ih]
    simp only [refusedConcat, not_or, forall_and]
    refine and_congr_right fun _ => ?_
    by_cases refused : b = .complete ∧ (p.beats bs).sink.busy = false
    · simp [refused, Law.blame]
    · simp [refused]

theorem firstBlamed (inStep : p.InStep) (fresh : Law.checkInFlight 0 false p.sink.trace = none)
    {bs before : List Beat} (refused : p.Refused bs before)
    (first : ∀ earlier, p.Refused bs earlier → before.length ≤ earlier.length) :
    ∃ v more, Law.singleInFlight.check (p.beats bs).sink.trace = some v ∧
      v.index = some (p.beats before).sink.trace.length ∧
      (p.beats bs).sink.trace = (p.beats before).sink.trace ++ .completed :: more := by
  obtain ⟨idle, after, rfl⟩ := refused
  -- Nothing was refused before, so that the check comes this far.
  have accepted : Law.checkInFlight 0 false (p.beats before).sink.trace = none := by
    refine (beatsInFlight inStep fresh before).mpr fun earlier ⟨idle, rest, split⟩ => ?_
    have late := first earlier ⟨idle, rest ++ .complete :: after, by simp [split]⟩
    rw [split, List.length_append, List.length_cons] at late
    omega
  have step := beatsInStep inStep before
  have way := struck step .complete
  have blamed := struckInFlight step way
  rw [accepted, Option.none_or, if_pos ⟨rfl, idle⟩] at blamed
  obtain ⟨numbers, trace⟩ := struckTrace way
  obtain ⟨rest, later⟩ := beatsTrace (struckInStep step way) after
  have split : before ++ Beat.complete :: after = before ++ [.complete] ++ after := by simp
  rw [split, beatsAppend, beatsConcat, later, Law.check, Law.inFlightWatched.split, blamed]
  exact ⟨_, numbers.map .appended ++ rest, rfl, rfl, by simp [trace]⟩

variable {numbers : List Nat}

theorem newRecorded (warnDepth : Nat) : (new ({} : Tape) warnDepth).Recorded [] where
  toInStep := newInStep warnDepth
  numbered := rfl
  order := rfl
  line := rfl
  gate := rfl
  unlocked := rfl
  worked _ := rfl

theorem enteredTaped (taped : p.Taped numbers) {b : Beat} (honest : b.Honest) (long : b.Long) :
    (p.entered b).Taped (numbers ++ b.numbers) := by
  refine tapedMark taped (enteredInStep taped.toInStep b) ?_ ?_ ?_
  · rw [entered, enterWaiting, List.map_append, List.map_append, Beat.arrivalsNumbered honest long,
      show (p.mapSink b.mark).waiting = p.waiting from rfl, taped.numbered]
  · rw [enteredSink, Beat.markTrace]
  · rw [entered, enterReady, Beat.eventReady]
    rfl

theorem beatRecorded (recorded : p.Recorded numbers) {b : Beat} (honest : b.Honest)
    (long : b.Long) : ∃ left, (p.beat b).pump.Recorded left := by
  have entered := enteredTaped recorded.toTaped honest long
  have way := struck recorded.toInStep b
  have inStep := struckInStep recorded.toInStep way
  generalize (p.beat b).pump = q, (p.beat b).result = result at way inStep ⊢
  cases way with
  | spurious event =>
    subst event
    have numbered : p.waiting.map Segment.sequence? = (numbers ++ Beat.complete.numbers).map some := by
      simpa using recorded.numbered
    have taped := tapedMark recorded.toTaped inStep numbered (Beat.markTrace .complete p.sink)
      (by simp [mapSink])
    exact ⟨_, { taped with worked := recorded.worked }⟩
  | quiet _ worked => exact ⟨_, { entered with worked }⟩
  | short _ head short => exact absurd short (tapedLong entered head)
  | taken _ clear head number =>
    obtain ⟨more, -, taken⟩ := tapedTake entered clear head number
    exact ⟨more, { taken with worked := fun clear => by cases clear.2 }⟩

theorem beatsRecorded (recorded : p.Recorded numbers) {bs : List Beat} (honest : ∀ b ∈ bs, b.Honest)
    (long : ∀ b ∈ bs, b.Long) : ∃ left, (p.beats bs).Recorded left := by
  induction bs using List.reverseRecOn with
  | nil => exact ⟨numbers, recorded⟩
  | append_singleton before b ih =>
    obtain ⟨left, ih⟩ := ih (fun b member => honest b (List.mem_append_left _ member))
      fun b member => long b (List.mem_append_left _ member)
    rw [beatsConcat]
    exact beatRecorded ih (honest b (by simp)) (long b (by simp))

theorem recordedHead (recorded : p.Recorded numbers) {t u : Trace} (split : p.sink.trace = t ++ u) :
    Law.ordering.check t = none ∧ Law.readinessGate.check t = none := by
  have order := recorded.order
  have gate := recorded.gate
  rw [split] at order gate
  exact ⟨Law.orderingWatched.head order, Law.gateWatched.head gate⟩

theorem recordedDone (recorded : p.Recorded numbers) (ready : p.ready = true)
    (idle : p.sink.busy = false) : p.sink.trace.appended = p.sink.trace.arrived := by
  have numbered := recorded.numbered
  rw [recorded.worked ⟨ready, idleSlot recorded.toInStep idle⟩] at numbered
  have left : numbers = [] := by simpa using numbered.symm
  rw [tapedOrdered recorded.toTaped, left, List.append_nil]

theorem lossless {t : Trace} (same : t.appended = t.arrived) (distinct : t.arrived.Nodup) :
    Law.noLoss.check t = none :=
  (Law.lossNone t).mpr ⟨same ▸ distinct, fun _ member => same ▸ member⟩

theorem drivenInStep (warnDepth : Nat) (bs : List Beat) :
    let start := new ({} : Tape) warnDepth
    let p := start.beats bs
    (p.sink.busy = true ↔ p.slot = .inFlight) ∧
      (∀ b : Beat,
        (b = .complete ∧ p.sink.complete.1 = false ↔
          (p.beat b).result = .error (.pump .unexpectedCompletion)) ∧
        ∀ fault, (p.beat b).result = .error fault → fault ≠ .pump .unexpectedCompletion →
          fault = .pump (.sink .invalidState) ∧ ∃ segment rest,
            p.waiting ++ b.event.arrivals = segment :: rest ∧ segment.size < Header.size) ∧
      p.sink.trace.arrived = bs.flatMap Beat.numbers ∧
      (Law.singleInFlight.check p.sink.trace = none ↔ ∀ before, ¬ start.Refused bs before) ∧
      (∀ before, start.Refused bs before →
        (∀ earlier, start.Refused bs earlier → before.length ≤ earlier.length) →
        ∃ v more, Law.singleInFlight.check p.sink.trace = some v ∧
          v.index = some (start.beats before).sink.trace.length ∧
          p.sink.trace = (start.beats before).sink.trace ++ .completed :: more) ∧
      ((∀ b ∈ bs, b.Honest) → (∀ b ∈ bs, b.Long) →
        (∀ t u, p.sink.trace = t ++ u →
          Law.ordering.check t = none ∧ Law.readinessGate.check t = none) ∧
        (.ready ∈ bs → p.sink.busy = false →
          p.sink.trace.appended = p.sink.trace.arrived ∧
          ((bs.flatMap Beat.numbers).Nodup → Law.noLoss.check p.sink.trace = none))) := by
  have fresh := newInStep warnDepth
  have inStep := beatsInStep fresh bs
  have arrived := beatsArrived fresh bs
  refine ⟨inStep.busy, fun b => ⟨completionRefused inStep b, fun _ => faultShort inStep⟩, arrived,
    beatsInFlight fresh rfl bs, fun _ => firstBlamed fresh rfl, fun honest long => ?_⟩
  obtain ⟨left, recorded⟩ := beatsRecorded (newRecorded warnDepth) honest long
  refine ⟨fun _ _ => recordedHead recorded, fun sent idle => ?_⟩
  have ready : ((new ({} : Tape) warnDepth).beats bs).ready = true := by
    rw [beatsReady fresh]
    simp [sent]
  have same := recordedDone recorded ready idle
  exact ⟨same, fun distinct => lossless same (arrived ▸ distinct)⟩

theorem drivenInStepSpurious :
    let bs : List Beat :=
      [.complete, .ready, .arrive 5 ⟨⟨#[0, 0, 0, 0, 0, 0, 0, 5]⟩⟩, .complete]
    let p := (new ({} : Tape) 1).beats bs
    (∀ b ∈ bs, b.Honest) ∧ (∀ b ∈ bs, b.Long) ∧ p.sink.trace.appended = p.sink.trace.arrived ∧
      ∃ v, Law.singleInFlight.check p.sink.trace = some v ∧ v.index = some 0 := by
  intro bs p
  have honest : ∀ b ∈ bs, b.Honest := by decide
  have long : ∀ b ∈ bs, b.Long := by decide
  have refused : (new ({} : Tape) 1).Refused bs [] := ⟨rfl, _, rfl⟩
  obtain ⟨_, _, _, _, blamed, numbered⟩ := drivenInStep 1 bs
  obtain ⟨v, _, found, index, _⟩ := blamed [] refused fun _ _ => Nat.zero_le _
  have done := ((numbered honest long).2 (by decide) (by decide)).1
  exact ⟨honest, long, done, v, found, index⟩

end Pump
end SegmentPump
