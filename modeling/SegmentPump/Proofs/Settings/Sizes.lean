import SegmentPump.Proofs.Generator.Range
import SegmentPump.Proofs.Rehearsal.Interleaving
import SegmentPump.Proofs.Simulation.Delivery

/-! The sizes that are drawn with valid settings. A size is drawn below the number
after the largest one. Validation lets pass a largest size that no number of 64 bits
comes after, and with it a simulation fails at its first segment. With any other
sizes nothing overflows, and what is drawn lies within the bounds. -/
namespace SegmentPump

theorem SizeRange.segmentOverflow {r : SizeRange} (top : r.largest = 18446744073709551615)
    (sequence : Nat) (g : Generator) : r.segment sequence g = .error {} := by
  have limit : r.limit = .error {} := by rw [SizeRange.limit, if_pos top]
  rw [SizeRange.segment, limit]

theorem Source.segmentsOverflow {s : Source} (top : s.sizes.largest = 18446744073709551615)
    {count : Nat} (asked : count ≠ 0) : s.segments count = .error {} := by
  obtain ⟨count, rfl⟩ := Nat.exists_eq_succ_of_ne_zero asked
  rw [segments, emitOnto, emit, SizeRange.segmentOverflow top]
  rfl

namespace Interleaving

variable {i : Interleaving} {p : Play}

theorem soundFirst (sound : i.Sound p) (first : p.rehearsal.next = 0) :
    p.rehearsal.busy = false ∧ p.rehearsal.moves ≤ maxRepeats + 1 := by
  have share := Rehearsal.goingShare sound.going
  have readies := sound.readies
  have repeats := sound.repeats
  have sent := p.rehearsal.readySent.toNat_le
  refine ⟨Bool.toNat_eq_zero.mp (by omega), ?_⟩
  rw [Rehearsal.moves]
  omega

theorem overflowTurns (top : i.sizes.largest = 18446744073709551615) (asked : i.segmentCount ≠ 0)
    {fuel : Nat} {p : Play} (sound : i.Sound p) (first : p.rehearsal.next = 0)
    (enough : maxRepeats + 1 < fuel + p.rehearsal.moves) :
    i.turns fuel p = .error (.size {}) := by
  obtain ⟨idle, few⟩ := soundFirst sound first
  induction fuel generalizing p with
  | zero => omega
  | succ fuel ih =>
    rcases turned i p with ⟨_, done⟩ | ⟨action, generator, allowed, turn⟩
    · have all := (legalNone done).1
      omega
    rw [turns, turn]
    cases action with
    | arrive => rw [perform, SizeRange.segmentOverflow top]
    | complete =>
      -- Nothing but readiness can come before the first arrival.
      cases idle.symm.trans allowed
    | ready =>
      have drawn : i.Sound { p with rehearsal := { p.rehearsal with generator } } :=
        { sound with going := Rehearsal.goingDraw sound.going generator }
      obtain ⟨q, ready, after, moved⟩ := performsReady drawn allowed
      have still : q.rehearsal.next = 0 := moved.next.trans first
      have moves : q.rehearsal.moves = p.rehearsal.moves + 1 := (Rehearsal.movedMoves moved).trans rfl
      rw [ready]
      exact ih after still (by omega) (soundFirst after still).1 (soundFirst after still).2

theorem overflowRuns (top : i.sizes.largest = 18446744073709551615) (asked : i.segmentCount ≠ 0)
    (generator : Generator) (warnDepth : Nat) :
    i.runFrom generator warnDepth = .error (.size {}) := by
  have enough : maxRepeats + 1 < i.longest + (Rehearsal.new generator warnDepth).moves := by
    rw [longest]
    omega
  rw [runFrom, overflowTurns top asked (soundStart i generator warnDepth) rfl enough]
  rfl

end Interleaving

namespace Settings

variable {s : Settings}

theorem sizedIff :
    s.Sized ↔ s.segmentCount.toNat = 0 ∨ s.sizes.largest ≠ 18446744073709551615 := by
  have most := s.maxSegmentSize.toNat_lt
  refine or_congr (UInt64.toNat_inj (b := 0)).symm ?_
  rw [UInt64.lt_iff_toNat_lt, sizes, ne_eq, ← UInt64.toNat_inj]
  simp only [UInt64.reduceToNat]
  omega

theorem unsizedTop (unsized : ¬ s.Sized) :
    s.segmentCount.toNat ≠ 0 ∧ s.sizes.largest = 18446744073709551615 := by
  obtain ⟨asked, top⟩ := not_or.mp (mt sizedIff.mpr unsized)
  exact ⟨asked, not_not.mp top⟩

theorem unsizedSimulates (valid : s.validate = .ok ()) (unsized : ¬ s.Sized) (drawn : UInt64) :
    s.simulate drawn = .error (.size {}) := by
  obtain ⟨asked, top⟩ := unsizedTop unsized
  have segments : s.segments (.ofSeed (s.seed.getD drawn)) = .error {} :=
    Source.segmentsOverflow top asked
  simp only [simulate, valid, segments]

theorem unsizedRuns (unsized : ¬ s.Sized) (drawn : UInt64) (warnDepth : Nat) :
    (s.interleaving drawn).run warnDepth = .error (.size {}) := by
  obtain ⟨asked, top⟩ := unsizedTop unsized
  exact Interleaving.overflowRuns top asked _ warnDepth

theorem sizedSimulates (valid : s.validate = .ok ()) (sized : s.Sized) (drawn : UInt64) :
    ∃ report log, s.simulate drawn = .ok (report, log) := by
  obtain ⟨feed, fed, _, numbers⟩ := segmentsSized sized (.ofSeed (s.seed.getD drawn))
  obtain ⟨report, log, ran, _⟩ := simulated valid drawn fed numbers
  exact ⟨report, log, ran⟩

theorem sizedRuns (sized : s.Sized) (drawn : UInt64) (warnDepth : Nat) :
    ∃ report, (s.interleaving drawn).run warnDepth = .ok report := by
  have fits : s.segmentCount.toNat ≤ 256 ^ Header.size := Nat.le_of_lt s.segmentCount.toNat_lt
  obtain ⟨report, ran, _⟩ :=
    (s.interleaving drawn).runsClean (.ofSeed _) warnDepth fits (sizedIff.mp sized)
  exact ⟨report, ran⟩

theorem validDraws (valid : s.validate = .ok ()) {limit : UInt64}
    (known : s.sizes.limit = .ok limit) (g : Generator) :
    s.minSegmentSize ≤ (g.range s.minSegmentSize limit).1 ∧
      (g.range s.minSegmentSize limit).1 ≤ s.maxSegmentSize := by
  have ordered : s.minSegmentSize ≤ s.maxSegmentSize := by
    rw [validate] at valid
    split at valid
    · cases valid
    · split at valid
      · cases valid
      · rename_i ordered
        exact UInt64.not_lt.mp ordered
  exact SizeRange.drawnBetween known ordered g

theorem overflowsUnlessSized (valid : s.validate = .ok ()) (drawn : UInt64) (warnDepth : Nat) :
    (s.Sized →
      (∃ report log, s.simulate drawn = .ok (report, log)) ∧
        ∃ report, (s.interleaving drawn).run warnDepth = .ok report) ∧
    (¬ s.Sized →
      s.simulate drawn = .error (.size {}) ∧
        (s.interleaving drawn).run warnDepth = .error (.size {})) ∧
    ∀ limit, s.sizes.limit = .ok limit →
      limit.toNat = s.maxSegmentSize.toNat + 1 ∧
        ∀ g : Generator, s.minSegmentSize ≤ (g.range s.minSegmentSize limit).1 ∧
          (g.range s.minSegmentSize limit).1 ≤ s.maxSegmentSize := by
  refine ⟨fun sized => ?_, fun unsized => ?_, fun limit known => ?_⟩
  · exact ⟨sizedSimulates valid sized drawn, sizedRuns sized drawn warnDepth⟩
  · exact ⟨unsizedSimulates valid unsized drawn, unsizedRuns unsized drawn warnDepth⟩
  · exact ⟨SizeRange.limitAbove known, validDraws valid known⟩

theorem overflowsUnlessSizedBelow :
    let s : Settings := { testing with maxSegmentSize := 18446744073709551614 }
    s.validate = .ok () ∧ (∃ report log, s.simulate 0 = .ok (report, log)) ∧
      s.sizes.limit = .ok 18446744073709551615 := by
  intro s
  have valid : s.validate = .ok () := by decide
  have sized : s.Sized := .inr (by decide)
  have limit : s.sizes.limit = .ok 18446744073709551615 := by decide
  exact ⟨valid, (overflowsUnlessSized valid 0 1).1 sized |>.1, limit⟩

theorem validOverflows :
    let s : Settings := { testing with maxSegmentSize := 18446744073709551615 }
    s.validate = .ok () ∧ s.simulate 0 = .error (.size {}) ∧
      (s.interleaving 0).run s.queueWarnDepth.toNat = .error (.size {}) := by
  intro s
  have valid : s.validate = .ok () := by decide
  have unsized : ¬ s.Sized := by rw [Sized]; decide
  exact ⟨valid, unsizedSimulates valid unsized 0, unsizedRuns unsized 0 _⟩

end Settings
end SegmentPump
