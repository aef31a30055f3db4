import SegmentPump.Proofs.Pump.Intact
import SegmentPump.Proofs.Rehearsal.Driven

/-! A rehearsal that makes legal moves only. No move fails, each adds one mark to
the tape, and once everything has arrived, the sink was ready and nothing is under
way, the tape breaks no law and has every segment on it. -/
namespace SegmentPump

namespace Pump

structure Faultless (p : Pump Tape) (numbers : List Nat) : Prop extends p.Recorded numbers where
  intact : p.Intact
  single : Law.checkInFlight 0 false p.sink.trace = none
  received : p.counters.segmentsReceived = p.sink.trace.arrived.length

variable {p : Pump Tape} {numbers : List Nat}

theorem newFaultless (warnDepth : Nat) : (new ({} : Tape) warnDepth).Faultless [] where
  toRecorded := newRecorded warnDepth
  intact := intactNew _ warnDepth
  single := rfl
  received := rfl

theorem beatOk (taped : p.Taped numbers) {b : Beat} (honest : b.Honest) (long : b.Long)
    (legal : b = .complete → p.sink.busy = true) : (p.beat b).result = .ok () := by
  cases result : (p.beat b).result with
  | ok => rfl
  | error fault =>
    by_cases unexpected : fault = .pump .unexpectedCompletion
    · rw [unexpected, ← completionRefused taped.toInStep] at result
      rw [show p.sink.complete.1 = p.sink.busy from rfl, legal result.1] at result
      cases result.2
    · obtain ⟨-, segment, rest, head, short⟩ := faultShort taped.toInStep result unexpected
      have waiting : (p.entered b).waiting = segment :: rest := (enterWaiting _ _).trans head
      exact absurd short (tapedLong (enteredTaped taped honest long) waiting)

theorem beatFaultless (faultless : p.Faultless numbers) {b : Beat} (honest : b.Honest)
    (long : b.Long) (legal : b = .complete → p.sink.busy = true) :
    ∃ left, (p.beat b).pump.Faultless left := by
  have ok := beatOk faultless.toTaped honest long legal
  have way := struck faultless.toInStep b
  obtain ⟨left, recorded⟩ := beatRecorded faultless.toRecorded honest long
  have received := receivedReact (p := p.mapSink b.mark) faultless.latched b.event
  have expected : ¬ (b = .complete ∧ p.sink.busy = false) := by
    rintro ⟨complete, idle⟩
    rw [legal complete] at idle
    cases idle
  refine ⟨left, { recorded with intact := ?_, single := ?_, received := ?_ }⟩
  · exact intactReact (intactMap faultless.intact b.mark) ok
  · rw [struckInFlight faultless.toInStep way, faultless.single, if_neg expected, Option.or_none]
  · rw [struckArrived way, List.length_append, ← faultless.received]
    refine received.1.trans ?_
    cases b <;> rfl

theorem faultlessShare (faultless : p.Faultless numbers) :
    p.sink.trace.arrived.length =
      p.sink.trace.count .completed + p.sink.busy.toNat + p.waiting.length := by
  have balance := Law.inFlightBalance faultless.single
  have numbered := congrArg List.length faultless.numbered
  rw [faultless.held, Bool.toNat_false, Nat.add_zero] at balance
  rw [List.length_map, List.length_map] at numbered
  rw [tapedOrdered faultless.toTaped, List.length_append, balance, numbered]

theorem faultlessDone (faultless : p.Faultless numbers) (ready : p.ready = true)
    (idle : p.sink.busy = false) (distinct : p.sink.trace.arrived.Nodup) :
    p.sink.trace.violations = [] ∧ p.drained = true := by
  have same := recordedDone faultless.toRecorded ready idle
  have free : p.slot = .idle := idleSlot faultless.toInStep idle
  have empty := faultless.toRecorded.worked ⟨ready, free⟩
  obtain ⟨order, gate⟩ := recordedHead faultless.toRecorded (List.append_nil _).symm
  constructor
  · rw [Trace.violationsNone]
    rintro (_ | _ | _ | _)
    · exact order
    · exact faultless.single
    · exact gate
    · exact lossless same distinct
  · exact (drainedIff p).mpr ⟨empty, free⟩

end Pump

namespace Rehearsal

structure Going (r : Rehearsal) : Prop where
  faultless : ∃ numbers, r.pump.Faultless numbers
  arrived : r.trace.arrived = List.range r.next
  sent : r.pump.ready = r.readySent

structure Moved (r : Rehearsal) (b : Beat) (q : Rehearsal) : Prop where
  going : q.Going
  next : q.next = r.next + b.numbers.length
  sent : q.readySent = (r.readySent || decide (b = .ready))
  trace : ∃ appends : List Nat, q.trace = r.trace ++ b.writes :: appends.map .appended

variable {r : Rehearsal}

theorem goingNew (generator : Generator) (warnDepth : Nat) : (new generator warnDepth).Going where
  faultless := ⟨[], Pump.newFaultless warnDepth⟩
  arrived := rfl
  sent := rfl

theorem goingDraw (going : r.Going) (generator : Generator) : { r with generator }.Going :=
  { going with }

theorem played (going : r.Going) {b : Beat} (honest : b.Honest) (long : b.Long)
    (legal : b = .complete → r.busy = true) {marked : Rehearsal} (same : marked.pump = r.pump)
    (numbers : b.numbers = List.range' r.next b.numbers.length)
    (next : marked.next = r.next + b.numbers.length)
    (sent : marked.readySent = (r.readySent || decide (b = .ready))) :
    ∃ q, marked.play b.mark b.event = .ok q ∧ r.Moved b q := by
  obtain ⟨_, faultless⟩ := going.faultless
  have ok : ((marked.pump.mapSink b.mark).react b.event).result = .ok () := by
    rw [same]
    exact Pump.beatOk faultless.toTaped honest long legal
  have way := Pump.struck faultless.toInStep b
  refine ⟨_, by rw [play, ok], ?_⟩
  rw [same]
  refine { going := ?_, next, sent, trace := Pump.struckTrace way }
  refine { faultless := Pump.beatFaultless faultless honest long legal, arrived := ?_, sent := ?_ }
  · calc _ = List.range r.next ++ b.numbers := by rw [← going.arrived]; exact Pump.struckArrived way
      _ = List.range (r.next + b.numbers.length) := by
        rw [numbers, List.length_range', List.range_eq_range', List.range_eq_range',
          ← List.range'_append_1, Nat.zero_add]
      _ = List.range marked.next := by rw [next]
  · exact (Pump.beatReady faultless.toInStep b).trans (by rw [sent, going.sent])

theorem arrives (going : r.Going) (generator : Generator) {segment : Segment}
    (number : segment.sequence? = some r.next) :
    ∃ q, { r with generator }.arrive segment = .ok q ∧ r.Moved (.arrive r.next segment) q := by
  have long : Header.size ≤ segment.size := by
    refine Nat.le_of_not_lt fun short => ?_
    rw [Segment.sequenceNone.mpr short] at number
    cases number
  exact played going (b := .arrive r.next segment) (.inr number) long nofun rfl rfl rfl
    (by simp)

theorem readies (going : r.Going) : ∃ q, r.ready = .ok q ∧ r.Moved .ready q :=
  played going (b := .ready) trivial trivial nofun rfl rfl rfl (by simp)

theorem completes (going : r.Going) (busy : r.busy = true) :
    ∃ q, r.complete = .ok q ∧ r.Moved .complete q :=
  played going (b := .complete) trivial trivial (fun _ => busy) rfl rfl rfl (by simp)

theorem movedCount {b : Beat} {q : Rehearsal} (moved : r.Moved b q) {e : TraceEvent}
    (other : e.appended? = none) : q.trace.count e = r.trace.count e + [b.writes].count e := by
  obtain ⟨appends, trace⟩ := moved.trace
  rw [trace, List.count_append, List.count_cons, Trace.countAppends appends other,
    List.count_singleton, Nat.zero_add]

theorem movedSilent {b : Beat} {q : Rehearsal} (moved : r.Moved b q) (other : b ≠ .ready) :
    q.readySent = r.readySent ∧ q.trace.count .ready = r.trace.count .ready := by
  rw [moved.sent, movedCount moved rfl]
  cases b with
  | arrive => simp
  | ready => exact absurd rfl other
  | complete => simp

def moves (r : Rehearsal) : Nat := r.next + r.trace.count .completed + r.trace.count .ready

theorem movedMoves {b : Beat} {q : Rehearsal} (moved : r.Moved b q) : q.moves = r.moves + 1 := by
  rw [moves, movedCount moved rfl, movedCount moved rfl, moved.next, moves]
  cases b <;> simp <;> omega

theorem goingShare (going : r.Going) :
    r.next = r.trace.count .completed + r.busy.toNat + r.pump.waiting.length := by
  obtain ⟨numbers, faultless⟩ := going.faultless
  have share := Pump.faultlessShare faultless
  rwa [show r.pump.sink.trace.arrived = List.range r.next from going.arrived,
    List.length_range] at share

theorem goingRested (going : r.Going) (sent : r.readySent = true) (idle : r.busy = false) :
    r.pump.waiting = [] := by
  obtain ⟨numbers, faultless⟩ := going.faultless
  exact faultless.toRecorded.worked
    ⟨going.sent.trans sent, Pump.idleSlot faultless.toInStep idle⟩

structure Finished (r : Rehearsal) (count : Nat) : Prop where
  violations : r.trace.violations = []
  arrived : r.trace.arrived = List.range count
  appended : r.trace.appended = List.range count
  completed : r.trace.count .completed = count
  length : r.trace.length = 3 * count + r.trace.count .ready
  received : r.pump.stats.segmentsReceived = count
  drained : r.pump.drained = true
  settled : r.pump.stats.Settled
  ready : r.pump.stats.sinkReady = true
  idle : r.busy = false

theorem goingFinished (going : r.Going) (sent : r.readySent = true) (idle : r.busy = false) :
    r.Finished r.next := by
  obtain ⟨numbers, faultless⟩ := going.faultless
  have ready : r.pump.ready = true := going.sent.trans sent
  have arrived : r.pump.sink.trace.arrived = List.range r.next := going.arrived
  obtain ⟨violations, drained⟩ :=
    Pump.faultlessDone faultless ready idle (arrived ▸ List.nodup_range)
  have appended := (Pump.recordedDone faultless.toRecorded ready idle).trans arrived
  have completed : r.trace.count .completed = r.next := by
    have share := goingShare going
    rw [idle, goingRested going sent idle] at share
    exact share.symm
  refine { violations, arrived, appended, completed, drained, idle, ready, length := ?_, received := ?_
           settled := Pump.drainedSettled faultless.intact.toTallied drained }
  · rw [Trace.lengthParts, show r.trace.arrived = _ from arrived,
      show r.trace.appended = _ from appended, completed, List.length_range]
    omega
  · refine faultless.received.trans ?_
    rw [arrived, List.length_range]

end Rehearsal
end SegmentPump
