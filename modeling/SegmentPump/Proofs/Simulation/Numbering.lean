import SegmentPump.Proofs.Generator.Payload
import SegmentPump.Simulation.Report

/-! The segments of a simulated source are numbered from zero in the order in
which they are sent, whatever their sizes and the random bytes in them. -/
namespace SegmentPump

theorem SizeRange.numbered {r : SizeRange} (bounded : r.largest ≠ 18446744073709551615)
    (sequence : Nat) (g : Generator) :
    ∃ segment generator, r.segment sequence g = .ok (segment, generator) ∧
      segment.sequence? = some (sequence % 256 ^ Header.size) := by
  have limit : r.limit = .ok (r.largest + 1) := by rw [SizeRange.limit, if_neg bounded]
  rw [SizeRange.segment, limit]
  exact ⟨_, _, rfl, Segment.simulatedSequence ..⟩

theorem Segment.rangeNumbered {feed : List Segment} {count : Nat}
    (numbers : feed.map Segment.sequence? = (List.range count).map some) :
    ∀ segment ∈ feed, segment.sequence? ≠ none := by
  intro segment member unnumbered
  have listed := List.mem_map_of_mem (f := Segment.sequence?) member
  rw [numbers, unnumbered] at listed
  simp at listed

namespace Source

def numbers (s : Source) (count : Nat) : List Nat :=
  (List.range' s.next count).map (· % 256 ^ Header.size)

theorem emitted {s : Source} (bounded : s.sizes.largest ≠ 18446744073709551615) :
    ∃ segment generator, s.emit = .ok (segment, { s with next := s.next + 1, generator }) ∧
      segment.sequence? = some (s.next % 256 ^ Header.size) := by
  obtain ⟨segment, generator, picked, number⟩ := SizeRange.numbered bounded s.next s.generator
  exact ⟨segment, generator, by rw [emit, picked], number⟩

theorem emittedOnto (count : Nat) {s : Source} (bounded : s.sizes.largest ≠ 18446744073709551615)
    (sent : Line Segment) :
    ∃ all, emitOnto sent count s = .ok all ∧
      all.toList.map Segment.sequence? =
        sent.toList.map Segment.sequence? ++ (s.numbers count).map some := by
  induction count generalizing s sent with
  | zero => exact ⟨sent, rfl, (List.append_nil _).symm⟩
  | succ count ih =>
    obtain ⟨segment, generator, emits, number⟩ := emitted bounded
    let behind : Source := { s with next := s.next + 1, generator }
    obtain ⟨all, done, numbers⟩ := ih (s := behind) bounded (sent.push segment)
    refine ⟨all, by rw [emitOnto, emits]; exact done, ?_⟩
    rw [numbers]
    simp [Source.numbers, List.range', number, behind]

theorem numbersStart {s : Source} (start : s.next = 0) {count : Nat}
    (fits : count ≤ 256 ^ Header.size) : s.numbers count = List.range count := by
  have small : ∀ n ∈ List.range count, n % 256 ^ Header.size = id n := by
    intro n member
    exact Nat.mod_eq_of_lt (Nat.lt_of_lt_of_le (List.mem_range.mp member) fits)
  rw [numbers, start, ← List.range_eq_range', List.map_congr_left small, List.map_id]

end Source

theorem Settings.segmentsNumbered (s : Settings) (bounded : s.maxSegmentSize < 18446744073709551615)
    (generator : Generator) :
    ∃ feed, s.segments generator = .ok feed ∧
      feed.map Segment.sequence? = (List.range s.segmentCount.toNat).map some := by
  have top : (s.source generator).sizes.largest ≠ 18446744073709551615 := by
    intro same
    have : s.maxSegmentSize = 18446744073709551615 := same
    rw [this] at bounded
    exact absurd bounded (by decide)
  obtain ⟨all, done, numbers⟩ := Source.emittedOnto s.segmentCount.toNat top .empty
  refine ⟨all.toList, ?_, ?_⟩
  · rw [segments, Source.segments, done]
    rfl
  · have fits : s.segmentCount.toNat ≤ 256 ^ Header.size := Nat.le_of_lt s.segmentCount.toNat_lt
    rw [numbers, Source.numbersStart rfl fits]
    rfl

end SegmentPump
