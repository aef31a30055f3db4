import SegmentPump.Proofs.Generator.Range
import SegmentPump.Proofs.Rehearsal.Going
import SegmentPump.Proofs.Simulation.Numbering
import SegmentPump.Rehearsal.Interleaving

/-! Random interleavings end, whatever is drawn. Each turn makes one legal move,
there are not many of them, and a run that has none left is finished. -/
namespace SegmentPump

namespace Interleaving

variable {i : Interleaving} {p q : Play}

def Allows (i : Interleaving) (p : Play) : Action → Prop
  | .arrive => p.rehearsal.next < i.segmentCount
  | .complete => p.rehearsal.busy = true
  | .ready => p.rehearsal.readySent = true → p.repeats < maxRepeats

theorem legalAllowed {action : Action} (member : action ∈ i.legal p (i.offersReady p).1) :
    i.Allows p action := by
  simp only [legal, List.mem_append, List.mem_ite_nil_right, List.mem_singleton] at member
  rcases member with (⟨more, rfl⟩ | ⟨busy, rfl⟩) | ⟨offered, rfl⟩
  · exact more
  · exact busy
  · intro sent
    by_cases few : p.repeats < maxRepeats
    · exact few
    · simp [offersReady, sent, few] at offered

theorem legalNone (closed : i.legal p (i.offersReady p).1 = []) :
    i.segmentCount ≤ p.rehearsal.next ∧ p.rehearsal.busy = false ∧
      p.rehearsal.readySent = true := by
  simp only [legal, List.append_eq_nil_iff, ite_eq_right_iff, List.cons_ne_nil, imp_false,
    Nat.not_lt, Bool.not_eq_true] at closed
  obtain ⟨⟨all, idle⟩, refused⟩ := closed
  refine ⟨all, idle, ?_⟩
  cases sent : p.rehearsal.readySent with
  | true => rfl
  | false => simp [offersReady, sent] at refused

theorem legalLength (i : Interleaving) (p : Play) (ready : Bool) : (i.legal p ready).length ≤ 3 := by
  simp only [legal, List.length_append]
  split <;> split <;> split <;> simp

theorem turnChoice (i : Interleaving) (p : Play) :
    ∃ choice generator,
      (i.legal p (i.offersReady p).1 ≠ [] → choice < (i.legal p (i.offersReady p).1).length) ∧
      i.turn p = (i.legal p (i.offersReady p).1)[choice]?.map
        (i.perform { p with rehearsal := { p.rehearsal with generator } }) := by
  refine ⟨_, _, fun more => ?_, rfl⟩
  have small := Nat.lt_of_le_of_lt (legalLength i p (i.offersReady p).1) (by decide : 3 < 2 ^ 64)
  have below := Generator.rangeBelow (i.offersReady p).2
    (UInt64.ofNat (i.legal p (i.offersReady p).1).length)
  rw [UInt64.toNat_ofNat_of_lt' small] at below
  exact below (List.length_pos_iff.mpr more)

theorem turned (i : Interleaving) (p : Play) :
    (i.turn p = none ∧ i.legal p (i.offersReady p).1 = []) ∨
      ∃ action generator, i.Allows p action ∧ i.turn p =
        some (i.perform { p with rehearsal := { p.rehearsal with generator } } action) := by
  obtain ⟨choice, generator, inside, turn⟩ := turnChoice i p
  cases chosen : (i.legal p (i.offersReady p).1)[choice]? with
  | some action =>
    rw [chosen] at turn
    exact .inr ⟨action, generator, legalAllowed (List.mem_of_getElem? chosen), turn⟩
  | none =>
    rw [chosen] at turn
    refine .inl ⟨turn, ?_⟩
    by_contra more
    exact absurd (inside more) (Nat.not_lt.mpr (List.getElem?_eq_none_iff.mp chosen))

structure Sound (i : Interleaving) (p : Play) : Prop where
  going : p.rehearsal.Going
  bound : p.rehearsal.next ≤ i.segmentCount
  readies : p.rehearsal.trace.count .ready = p.repeats + p.rehearsal.readySent.toNat
  repeats : p.repeats ≤ maxRepeats

theorem performsReady (sound : i.Sound p) (allowed : i.Allows p .ready) :
    ∃ q, i.perform p .ready = .ok q ∧ i.Sound q ∧ p.rehearsal.Moved .ready q.rehearsal := by
  obtain ⟨q, ready, moved⟩ := Rehearsal.readies sound.going
  refine ⟨_, by rw [perform, ready]; rfl, ?_, moved⟩
  refine { going := moved.going, bound := ?_, readies := ?_, repeats := ?_ }
  · rw [moved.next]
    exact sound.bound
  · rw [Rehearsal.movedCount moved rfl, moved.sent, sound.readies]
    cases p.rehearsal.readySent <;> simp
  · cases sent : p.rehearsal.readySent with
    | true => exact allowed sent
    | false => exact sound.repeats

theorem performs (fits : i.segmentCount ≤ 256 ^ Header.size)
    (bounded : i.segmentCount = 0 ∨ i.sizes.largest ≠ 18446744073709551615) (sound : i.Sound p)
    {action : Action} (allowed : i.Allows p action) :
    ∃ q, i.perform p action = .ok q ∧ i.Sound q ∧ q.rehearsal.moves = p.rehearsal.moves + 1 := by
  cases action with
  | arrive =>
    have more : p.rehearsal.next < i.segmentCount := allowed
    have largest := bounded.resolve_left (Nat.ne_zero_of_lt more)
    obtain ⟨segment, generator, picked, number⟩ :=
      SizeRange.numbered largest p.rehearsal.next p.rehearsal.generator
    rw [Nat.mod_eq_of_lt (Nat.lt_of_lt_of_le more fits)] at number
    obtain ⟨q, arrive, moved⟩ := Rehearsal.arrives sound.going generator number
    have step : i.perform p .arrive =
        ({ p.rehearsal with generator }.arrive segment).map fun rehearsal => { p with rehearsal } := by
      rw [perform, picked]
    refine ⟨{ p with rehearsal := q }, by rw [step, arrive]; rfl, ?_, Rehearsal.movedMoves moved⟩
    refine { going := moved.going, bound := ?_, readies := ?_, repeats := sound.repeats }
    · rw [moved.next]
      exact more
    · obtain ⟨sent, readies⟩ := Rehearsal.movedSilent moved nofun
      rw [readies, sent, sound.readies]
  | complete =>
    obtain ⟨q, complete, moved⟩ := Rehearsal.completes sound.going allowed
    refine ⟨{ p with rehearsal := q }, by rw [perform, complete]; rfl, ?_,
      Rehearsal.movedMoves moved⟩
    refine { going := moved.going, bound := ?_, readies := ?_, repeats := sound.repeats }
    · rw [moved.next]
      exact sound.bound
    · obtain ⟨sent, readies⟩ := Rehearsal.movedSilent moved nofun
      rw [readies, sent, sound.readies]
  | ready =>
    obtain ⟨q, ready, after, moved⟩ := performsReady sound allowed
    exact ⟨q, ready, after, Rehearsal.movedMoves moved⟩

inductive Ends (i : Interleaving) : Play → Nat → Play → Prop where
  | done {p : Play} (turn : i.turn p = none) : Ends i p 0 p
  | turn {p q last : Play} {count : Nat} (turn : i.turn p = some (.ok q)) (rest : Ends i q count last) :
      Ends i p (count + 1) last

theorem endsTurns {last : Play} {count : Nat} (ends : i.Ends p count last) (fuel : Nat) :
    i.turns fuel p = if count ≤ fuel then .ok last else .error .unfinished := by
  induction ends generalizing fuel with
  | done turn => rw [turns, turn, if_pos (Nat.zero_le fuel)]
  | turn turn rest ih =>
    rw [turns, turn]
    cases fuel with
    | zero => rfl
    | succ fuel => simpa using ih fuel

theorem soundMoves (sound : i.Sound p) : p.rehearsal.moves ≤ i.longest := by
  have share := Rehearsal.goingShare sound.going
  have bound := sound.bound
  have readies := sound.readies
  have repeats := sound.repeats
  have sent := p.rehearsal.readySent.toNat_le
  simp only [Rehearsal.moves, longest, maxRepeats] at *
  omega

structure Over (i : Interleaving) (p : Play) : Prop where
  sound : i.Sound p
  done : i.legal p (i.offersReady p).1 = []

theorem overFinished (closed : i.Over p) : p.rehearsal.Finished i.segmentCount := by
  obtain ⟨all, idle, sent⟩ := legalNone closed.done
  have finished := Rehearsal.goingFinished closed.sound.going sent idle
  rwa [Nat.le_antisymm closed.sound.bound all] at finished

theorem overReadies (closed : i.Over p) :
    1 ≤ p.rehearsal.trace.count .ready ∧ p.rehearsal.trace.count .ready ≤ 4 := by
  obtain ⟨_, _, sent⟩ := legalNone closed.done
  have readies := closed.sound.readies
  rw [sent, Bool.toNat_true] at readies
  rw [readies]
  exact ⟨Nat.le_add_left 1 _, Nat.add_le_add_right closed.sound.repeats 1⟩

theorem overMoves (closed : i.Over p) :
    p.rehearsal.moves = 2 * i.segmentCount + p.rehearsal.trace.count .ready := by
  have next := Nat.le_antisymm closed.sound.bound (legalNone closed.done).1
  rw [Rehearsal.moves, (overFinished closed).completed, next, ← Nat.two_mul]

theorem soundEnds (fits : i.segmentCount ≤ 256 ^ Header.size)
    (bounded : i.segmentCount = 0 ∨ i.sizes.largest ≠ 18446744073709551615) {p : Play}
    (sound : i.Sound p) :
    ∃ count last, i.Ends p count last ∧ i.Over last ∧
      last.rehearsal.moves = p.rehearsal.moves + count := by
  rcases turned i p with ⟨closed, done⟩ | ⟨action, generator, allowed, turn⟩
  · exact ⟨0, p, .done closed, ⟨sound, done⟩, rfl⟩
  · have drawn : i.Sound { p with rehearsal := { p.rehearsal with generator } } :=
      { sound with going := Rehearsal.goingDraw sound.going generator }
    have still : i.Allows { p with rehearsal := { p.rehearsal with generator } } action := by
      cases action <;> exact allowed
    obtain ⟨q, performed, after, moved⟩ := performs fits bounded drawn still
    have moves : q.rehearsal.moves = p.rehearsal.moves + 1 := moved
    -- Every move counts, and only `longest` of them can be made.
    have room := soundMoves after
    obtain ⟨count, last, ends, closed, total⟩ := soundEnds fits bounded after
    exact ⟨count + 1, last, .turn (by rw [turn, performed]) ends, closed, by omega⟩
termination_by i.longest - p.rehearsal.moves

theorem soundStart (i : Interleaving) (generator : Generator) (warnDepth : Nat) :
    i.Sound { rehearsal := .new generator warnDepth } where
  going := Rehearsal.goingNew generator warnDepth
  bound := Nat.zero_le _
  readies := rfl
  repeats := Nat.zero_le _

theorem runs (i : Interleaving) (generator : Generator) (warnDepth : Nat)
    (fits : i.segmentCount ≤ 256 ^ Header.size)
    (bounded : i.segmentCount = 0 ∨ i.sizes.largest ≠ 18446744073709551615) :
    ∃ last, i.Over last ∧ i.turns i.longest { rehearsal := .new generator warnDepth } = .ok last ∧
      i.runFrom generator warnDepth = .ok (i.report last) ∧
      ∀ fuel, i.turns fuel { rehearsal := .new generator warnDepth } =
        if 2 * i.segmentCount + last.rehearsal.trace.count .ready ≤ fuel then .ok last
        else .error .unfinished := by
  obtain ⟨count, last, ends, closed, moves⟩ :=
    soundEnds fits bounded (soundStart i generator warnDepth)
  have start : (Rehearsal.new generator warnDepth).moves = 0 := rfl
  have made : count = 2 * i.segmentCount + last.rehearsal.trace.count .ready := by
    rw [← overMoves closed, moves, start, Nat.zero_add]
  have enough : count ≤ i.longest := by
    have few := soundMoves closed.sound
    omega
  have turns : i.turns i.longest { rehearsal := .new generator warnDepth } = .ok last := by
    rw [endsTurns ends, if_pos enough]
  exact ⟨last, closed, turns, by rw [runFrom, turns]; rfl, made ▸ endsTurns ends⟩

structure Report.Clean (r : Report) (segmentCount : Nat) : Prop where
  violations : r.violations = []
  length : r.trace.length = 3 * segmentCount + r.trace.count .ready
  atLeast : 1 ≤ r.trace.count .ready
  atMost : r.trace.count .ready ≤ 4

theorem runsClean (i : Interleaving) (generator : Generator) (warnDepth : Nat)
    (fits : i.segmentCount ≤ 256 ^ Header.size)
    (bounded : i.segmentCount = 0 ∨ i.sizes.largest ≠ 18446744073709551615) :
    ∃ report, i.runFrom generator warnDepth = .ok report ∧ report.seed = i.seed ∧
      report.Clean i.segmentCount := by
  obtain ⟨last, closed, _, ran, _⟩ := i.runs generator warnDepth fits bounded
  have finished := overFinished closed
  obtain ⟨atLeast, atMost⟩ := overReadies closed
  exact ⟨i.report last, ran, rfl, finished.violations, finished.length, atLeast, atMost⟩

theorem everyRunDrains (i : Interleaving) (generator : Generator) (warnDepth : Nat)
    (fits : i.segmentCount ≤ 256 ^ Header.size)
    (bounded : i.segmentCount = 0 ∨ i.sizes.largest ≠ 18446744073709551615) :
    ∃ last report, i.runFrom generator warnDepth = .ok report ∧
      report.seed = i.seed ∧
      report.violations = [] ∧
      report.trace.arrived = List.range i.segmentCount ∧
      report.trace.appended = List.range i.segmentCount ∧
      report.trace.count .completed = i.segmentCount ∧
      (1 ≤ report.trace.count .ready ∧ report.trace.count .ready ≤ 4) ∧
      report.trace.length = 3 * i.segmentCount + report.trace.count .ready ∧
      report.stats.segmentsReceived = i.segmentCount ∧
      report.stats.segmentsAppended = i.segmentCount ∧
      report.stats.completions = i.segmentCount ∧
      report.stats.bytesAppended = report.stats.bytesReceived ∧
      report.stats.queueDepth = 0 ∧ report.stats.queuedBytes = 0 ∧
      report.stats.slot = .idle ∧ report.stats.sinkReady = true ∧
      i.legal last (i.offersReady last).1 = [] ∧
      ∀ fuel, i.turns fuel { rehearsal := .new generator warnDepth } =
        if 2 * i.segmentCount + report.trace.count .ready ≤ fuel then .ok last
        else .error .unfinished := by
  obtain ⟨last, closed, _, ran, turns⟩ := i.runs generator warnDepth fits bounded
  have finished := overFinished closed
  have settled := finished.settled
  exact ⟨last, i.report last, ran, rfl, finished.violations, finished.arrived, finished.appended,
    finished.completed, overReadies closed, finished.length, finished.received,
    settled.appended.trans finished.received, settled.completions.trans finished.received,
    settled.bytes, settled.queueDepth, settled.queuedBytes, settled.slot, finished.ready, closed.done,
    turns⟩

theorem everyRunDrainsShort :
    let i : Interleaving :=
      { seed := 7, segmentCount := 2, sizes := { smallest := 0, largest := 3 } }
    i.segmentCount ≤ 256 ^ Header.size ∧ i.sizes.largest ≠ 18446744073709551615 ∧
      ∃ report, i.run 1 = .ok report ∧ report.violations = [] ∧
        report.trace.appended = [0, 1] := by
  intro i
  have fits : i.segmentCount ≤ 256 ^ Header.size := by decide
  have bounded : i.sizes.largest ≠ 18446744073709551615 := by decide
  obtain ⟨_, report, run, _, violations, _, appended, _⟩ :=
    everyRunDrains i (.ofSeed 7) 1 fits (.inr bounded)
  exact ⟨fits, bounded, report, run, violations, appended⟩

end Interleaving
end SegmentPump
