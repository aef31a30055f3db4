import SegmentPump.Proofs.Rehearsal.Interleaving

/-! The payloads of an interleaving. As long as no beat fails, a segment that has
reached the pump is on the tape or still waits, so that at the end of a run the tape
has them all, each as long as the bounds say. -/
namespace SegmentPump

theorem mappedOk {ε α β : Type} {f : α → β} {result : Except ε α} {b : β}
    (ok : result.map f = .ok b) : ∃ a, result = .ok a ∧ f a = b := by
  cases result with
  | error => cases ok
  | ok a => exact ⟨a, rfl, Except.ok.inj ok⟩

theorem Beat.markPayloads (b : Beat) (t : Tape) : (b.mark t).payloads = t.payloads := by
  cases b <;> rfl

namespace Pump

variable {p q : Pump Tape}

def supplied (p : Pump Tape) : List Segment := p.sink.payloads.toList ++ p.waiting

theorem enteredSupplied (p : Pump Tape) (b : Beat) :
    (p.entered b).supplied = p.supplied ++ b.event.arrivals := by
  have waiting : (p.entered b).waiting = p.waiting ++ b.event.arrivals := enterWaiting _ _
  rw [supplied, enteredSink, Beat.markPayloads, waiting, supplied, List.append_assoc]

theorem struckSupplied {b : Beat} (struck : Struck p b q (.ok ())) :
    q.supplied = p.supplied ++ b.event.arrivals := by
  rw [← enteredSupplied]
  cases struck with
  | quiet => rfl
  | taken _ _ head =>
    rw [supplied, takenPayloads, takenWaiting, Line.toListPush, List.append_assoc,
      List.singleton_append, ← head, supplied]

end Pump

namespace Interleaving

variable {i : Interleaving} {p q : Play}

structure Supplied (i : Interleaving) (p : Play) : Prop where
  inStep : p.rehearsal.pump.InStep
  count : p.rehearsal.pump.supplied.length = p.rehearsal.next
  sizes : ∀ segment ∈ p.rehearsal.pump.supplied, i.sizes.Admits segment.size

theorem suppliedStart (i : Interleaving) (generator : Generator) (warnDepth : Nat) :
    i.Supplied { rehearsal := .new generator warnDepth } where
  inStep := Pump.newInStep warnDepth
  count := rfl
  sizes := nofun

theorem playSupplied (supplied : i.Supplied p) {b : Beat} {r after : Rehearsal}
    (same : r.pump = p.rehearsal.pump)
    (next : r.next = p.rehearsal.next + b.event.arrivals.length)
    (sizes : ∀ segment ∈ b.event.arrivals, i.sizes.Admits segment.size)
    (ok : r.play b.mark b.event = .ok after) (repeats : Nat) :
    i.Supplied { rehearsal := after, repeats } := by
  have way := Pump.struck supplied.inStep b
  rw [Rehearsal.play, same] at ok
  split at ok
  case h_2 => cases ok
  case h_1 result =>
    cases ok
    rw [show (p.rehearsal.pump.beat b).result = .ok () from result] at way
    have all := Pump.struckSupplied way
    refine { inStep := Pump.struckInStep supplied.inStep way, count := ?_, sizes := ?_ }
    · exact (congrArg List.length all).trans (by rw [List.length_append, supplied.count, next])
    · intro segment member
      rcases List.mem_append.mp (all ▸ member) with before | new
      · exact supplied.sizes segment before
      · exact sizes segment new

theorem performSupplied (supplied : i.Supplied p) {action : Action}
    (ok : i.perform p action = .ok q) : i.Supplied q := by
  cases action with
  | arrive =>
    rw [perform] at ok
    split at ok
    case h_1 => cases ok
    case h_2 segment generator made =>
      obtain ⟨after, arrived, rfl⟩ := mappedOk ok
      have sizes : ∀ new ∈ [segment], i.sizes.Admits new.size := by
        simpa using SizeRange.segmentAdmitted made
      exact playSupplied supplied (b := .arrive p.rehearsal.next segment)
        (r := { p.rehearsal with generator, next := p.rehearsal.next + 1 }) rfl rfl sizes arrived _
  | complete =>
    obtain ⟨after, completed, rfl⟩ := mappedOk ok
    exact playSupplied supplied (b := .complete) rfl rfl (List.forall_mem_nil _) completed _
  | ready =>
    obtain ⟨after, readied, rfl⟩ := mappedOk ok
    exact playSupplied supplied (b := .ready) (r := { p.rehearsal with readySent := true })
      rfl rfl (List.forall_mem_nil _) readied _

theorem turnsSupplied (supplied : i.Supplied p) {fuel : Nat} (ok : i.turns fuel p = .ok q) :
    i.Supplied q := by
  induction fuel generalizing p with
  | zero =>
    rcases turned i p with ⟨turn, _⟩ | ⟨_, _, _, turn⟩
    · rw [turns, turn] at ok
      cases ok
      exact supplied
    · rw [turns, turn] at ok
      cases ok
  | succ fuel ih =>
    rcases turned i p with ⟨turn, _⟩ | ⟨action, generator, _, turn⟩
    · rw [turns, turn] at ok
      cases ok
      exact supplied
    · rw [turns, turn] at ok
      have drawn : i.Supplied { p with rehearsal := { p.rehearsal with generator } } :=
        { supplied with }
      cases performed : i.perform { p with rehearsal := { p.rehearsal with generator } } action with
      | error failure =>
        rw [performed] at ok
        cases ok
      | ok after =>
        rw [performed] at ok
        exact ih (performSupplied drawn performed) ok

theorem runsSupplied (i : Interleaving) (generator : Generator) (warnDepth : Nat)
    (fits : i.segmentCount ≤ 256 ^ Header.size)
    (bounded : i.segmentCount = 0 ∨ i.sizes.largest ≠ 18446744073709551615) :
    ∃ last report, i.turns i.longest { rehearsal := .new generator warnDepth } = .ok last ∧
      i.runFrom generator warnDepth = .ok report ∧ report.trace = last.rehearsal.trace ∧
      last.rehearsal.pump.sink.payloads.toList.length = i.segmentCount ∧
      ∀ segment ∈ last.rehearsal.pump.sink.payloads.toList, i.sizes.Admits segment.size := by
  obtain ⟨last, ⟨sound, done⟩, turns, ran, _⟩ := i.runs generator warnDepth fits bounded
  have supplied := turnsSupplied (suppliedStart i generator warnDepth) turns
  obtain ⟨all, idle, sent⟩ := legalNone done
  have whole : last.rehearsal.pump.supplied = last.rehearsal.pump.sink.payloads.toList := by
    rw [Pump.supplied, Rehearsal.goingRested sound.going sent idle, List.append_nil]
  refine ⟨last, i.report last, turns, ran, rfl, ?_, ?_⟩
  · rw [← whole, supplied.count]
    exact Nat.le_antisymm sound.bound all
  · rw [← whole]
    exact supplied.sizes

end Interleaving
end SegmentPump
