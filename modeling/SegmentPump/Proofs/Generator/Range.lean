import SegmentPump.Proofs.Generator.Payload

/-! Numbers drawn from a range, and the sizes drawn with them. As long as there is a
number after the largest size, a payload is as long as the bounds say, apart from the
header, which is never cut. -/
namespace SegmentPump

namespace Generator

variable {low high : UInt64}

/- The right side is a sum of numbers without a bound, so that nothing was cut off. -/
theorem rangeExact (g : Generator) (room : low < high) :
    (g.range low high).1.toNat =
      low.toNat + g.longWord.1.toNat % (high.toNat - low.toNat) := by
  have ordered : low.toNat < high.toNat := UInt64.lt_iff_toNat_lt.mp room
  have inside := Nat.mod_lt g.longWord.1.toNat (Nat.sub_pos_of_lt ordered)
  have most := high.toNat_lt
  rw [range, if_neg (UInt64.not_le.mpr room), UInt64.toNat_add, UInt64.toNat_mod,
    UInt64.toNat_sub_of_le _ _ (UInt64.le_of_lt room)]
  exact Nat.mod_eq_of_lt (by omega)

theorem rangeBetween (g : Generator) (room : low < high) :
    low ≤ (g.range low high).1 ∧ (g.range low high).1 < high := by
  have ordered : low.toNat < high.toNat := UInt64.lt_iff_toNat_lt.mp room
  have inside := Nat.mod_lt g.longWord.1.toNat (Nat.sub_pos_of_lt ordered)
  rw [UInt64.le_iff_toNat_le, UInt64.lt_iff_toNat_lt, rangeExact g room]
  omega

theorem rangeBelow (g : Generator) (high : UInt64) (positive : 0 < high.toNat) :
    (g.range 0 high).1.toNat < high.toNat := by
  have room : 0 < high := UInt64.lt_iff_toNat_lt.mpr positive
  exact UInt64.lt_iff_toNat_lt.mp (g.rangeBetween room).2

theorem rangeEmpty (g : Generator) (inverted : high ≤ low) : g.range low high = (low, g) :=
  if_pos inverted

end Generator

namespace SizeRange

variable {r : SizeRange}

structure Admits (r : SizeRange) (size : Nat) : Prop where
  ordered : r.smallest ≤ r.largest →
    max 8 r.smallest.toNat ≤ size ∧ size ≤ max 8 r.largest.toNat
  inverted : r.largest < r.smallest → size = max 8 r.smallest.toNat

theorem limitAbove {limit : UInt64} (known : r.limit = .ok limit) :
    limit.toNat = r.largest.toNat + 1 := by
  rw [SizeRange.limit] at known
  split at known
  · cases known
  · rename_i below
    cases known
    have below : r.largest.toNat ≠ 18446744073709551615 := fun same =>
      below (UInt64.toNat_inj.mp same)
    have most := r.largest.toNat_lt
    rw [UInt64.toNat_add, UInt64.toNat_one]
    exact Nat.mod_eq_of_lt (by omega)

theorem drawnBetween {limit : UInt64} (known : r.limit = .ok limit)
    (ordered : r.smallest ≤ r.largest) (g : Generator) :
    r.smallest ≤ (g.range r.smallest limit).1 ∧ (g.range r.smallest limit).1 ≤ r.largest := by
  have above := limitAbove known
  rw [UInt64.le_iff_toNat_le] at ordered
  have room : r.smallest < limit := UInt64.lt_iff_toNat_lt.mpr (by omega)
  obtain ⟨least, most⟩ := g.rangeBetween room
  rw [UInt64.lt_iff_toNat_lt] at most
  exact ⟨least, UInt64.le_iff_toNat_le.mpr (by omega)⟩

theorem drawnAdmitted {limit : UInt64} (known : r.limit = .ok limit) (g : Generator) :
    r.Admits (max (g.range r.smallest limit).1.toNat Header.size) := by
  constructor
  · intro ordered
    obtain ⟨least, most⟩ := drawnBetween known ordered g
    rw [UInt64.le_iff_toNat_le] at least most
    simp only [Header.size]
    omega
  · intro inverted
    have above := limitAbove known
    rw [UInt64.lt_iff_toNat_lt] at inverted
    -- Nothing lies between inverted bounds, even with the upper one raised by one.
    have empty : limit ≤ r.smallest := UInt64.le_iff_toNat_le.mpr (by omega)
    rw [g.rangeEmpty empty]
    exact Nat.max_comm _ _

theorem segmentAdmitted {sequence : Nat} {g after : Generator} {segment : Segment}
    (made : r.segment sequence g = .ok (segment, after)) : r.Admits segment.size := by
  cases known : r.limit with
  | error overflow =>
    rw [SizeRange.segment, known] at made
    cases made
  | ok limit =>
    rw [SizeRange.segment, known] at made
    have same : (Segment.simulated sequence (g.range r.smallest limit).1.toNat
        (g.range r.smallest limit).2).1 = segment := congrArg Prod.fst (Except.ok.inj made)
    rw [← same, Segment.simulatedSize]
    exact drawnAdmitted known g

end SizeRange
end SegmentPump
