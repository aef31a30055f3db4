import SegmentPump.Generator.Payload
import SegmentPump.Proofs.Segment.Header
import SegmentPump.Sink.Tape

/-! Simulated payloads. A payload is the header of its number and then filler, which
the generator makes without a look at the number, so that a number can be read back
whatever the size and the random bytes. -/
namespace SegmentPump

namespace Generator

theorem pushWordSize (out : ByteArray) (w : UInt32) : (pushWord out w).size = out.size + 4 := by
  simp [pushWord]

theorem pushWordsSize (count : Nat) (out : ByteArray) (g : Generator) :
    (pushWords count out g).1.size = out.size + 4 * count := by
  induction count generalizing out g with
  | zero => rfl
  | succ count ih =>
    rw [pushWords, ih, pushWordSize]
    omega

theorem bytesSize (g : Generator) (count : Nat) : (g.bytes count).1.size = count := by
  have words := pushWordsSize ((count + 3) / 4) (.emptyWithCapacity (count + 3)) g
  have empty : (ByteArray.emptyWithCapacity (count + 3)).size = 0 := rfl
  rw [empty] at words
  rw [bytes, ByteArray.size_extract, words]
  omega

end Generator

namespace Segment

def byteList (s : Segment) : List UInt8 := s.bytes.data.toList

theorem byteListLength (s : Segment) : s.byteList.length = s.size := rfl

theorem simulatedBytes (sequence size : Nat) (g : Generator) :
    (simulated sequence size g).1.byteList =
      Header.write Header.size sequence ++ (g.bytes (size - Header.size)).1.data.toList := by
  simp [simulated, byteList]

theorem simulatedSize (sequence size : Nat) (g : Generator) :
    (simulated sequence size g).1.size = max size Header.size := by
  have filler : (g.bytes (size - Header.size)).1.data.toList.length = size - Header.size :=
    g.bytesSize (size - Header.size)
  rw [← byteListLength, simulatedBytes, List.length_append, Header.writeLength, filler]
  omega

theorem sequenceNone {s : Segment} : s.sequence? = none ↔ s.size < Header.size := by
  unfold sequence?
  split
  case isTrue short => simp [short]
  case isFalse long => simp [long]

theorem sequenceRead {s : Segment} (long : Header.size ≤ s.size) :
    s.sequence? = some (Header.read (s.byteList.take Header.size)) := by
  rw [sequence?, if_neg (Nat.not_lt.mpr long), byteList]
  simp

theorem simulatedSequence (sequence size : Nat) (g : Generator) :
    (simulated sequence size g).1.sequence? = some (sequence % 256 ^ Header.size) := by
  have long : Header.size ≤ (simulated sequence size g).1.size := by
    rw [simulatedSize]
    exact Nat.le_max_right size Header.size
  have front : (simulated sequence size g).1.byteList.take Header.size =
      Header.write Header.size sequence := by
    rw [simulatedBytes, List.take_left' (Header.writeLength Header.size sequence)]
  rw [sequenceRead long, front, Header.readWrite]

theorem sequenceWritten {s : Segment} {sequence : Nat} (number : s.sequence? = some sequence) :
    sequence < 256 ^ Header.size ∧
      Header.write Header.size sequence = s.byteList.take Header.size := by
  have long : Header.size ≤ s.size := by
    refine Nat.le_of_not_lt fun short => ?_
    rw [sequenceNone.mpr short] at number
    cases number
  have width : (s.byteList.take Header.size).length = Header.size :=
    List.length_take_of_le (byteListLength s ▸ long)
  rw [sequenceRead long] at number
  cases number
  have bound := Header.readBound (s.byteList.take Header.size)
  have back := Header.writeRead (s.byteList.take Header.size)
  rw [width] at bound back
  exact ⟨bound, back⟩

theorem headerCarriesNumber :
    (∀ size g, ∃ filler after, filler.length = size - 8 ∧
      ∀ sequence, (simulated sequence size g).1.byteList = Header.write 8 sequence ++ filler ∧
        (simulated sequence size g).2 = after) ∧
    (∀ sequence size g, sequence < UInt64.size →
      (simulated sequence size g).1.size = max size 8 ∧
        (simulated sequence size g).1.sequence? = some sequence ∧
        ∀ other size' g', other < UInt64.size → other ≠ sequence →
          (simulated other size' g').1 ≠ (simulated sequence size g).1) ∧
    ∀ s : Segment, (s.sequence? = none ↔ s.size < 8) ∧
      ∀ sequence, s.sequence? = some sequence →
        sequence < UInt64.size ∧ Header.write 8 sequence = s.byteList.take 8 ∧
          ∀ place < 8, s.byteList[place]? =
            some (UInt8.ofNat (sequence / 256 ^ (7 - place) % 256)) := by
  have readBack {sequence : Nat} (fits : sequence < UInt64.size) (size : Nat) (g : Generator) :
      (simulated sequence size g).1.sequence? = some sequence := by
    rw [simulatedSequence]
    exact congrArg some (Nat.mod_eq_of_lt fits)
  refine ⟨fun size g => ?_, fun sequence size g fits => ⟨?_, ?_, ?_⟩, fun s => ⟨sequenceNone, ?_⟩⟩
  · exact ⟨_, (g.bytes (size - 8)).2, g.bytesSize (size - 8), fun sequence =>
      ⟨simulatedBytes sequence size g, rfl⟩⟩
  · exact simulatedSize sequence size g
  · exact readBack fits size g
  · intro other size' g' fits' different same
    have number := readBack fits' size' g'
    rw [same, readBack fits size g] at number
    exact different (Option.some.inj number).symm
  · intro sequence number
    obtain ⟨bound, front⟩ := sequenceWritten number
    refine ⟨bound, front, fun place inside => ?_⟩
    have byte := Header.writeAt inside sequence
    rwa [show Header.write 8 sequence = s.byteList.take 8 from front,
      List.getElem?_take_of_lt inside] at byte

theorem headerCarriesNumberLargest :
    let largest := 18446744073709551615
    let g : Generator := .ofSeed 9
    let found : Segment := ⟨⟨#[0, 0, 0, 0, 0, 0, 4, 210, 7]⟩⟩
    largest < UInt64.size ∧ (simulated largest 0 g).1.size = 8 ∧
      (simulated largest 11 g).1.sequence? = some largest ∧ 1234 < UInt64.size ∧
      (simulated 1234 11 g).1 ≠ (simulated largest 0 g).1 ∧ found.sequence? = some 1234 ∧
      Header.write 8 1234 = found.byteList.take 8 ∧ found.byteList[6]? = some 4 := by
  intro largest g found
  have fits : largest < UInt64.size := by decide
  have fits' : 1234 < UInt64.size := by decide
  have number : found.sequence? = some 1234 := by decide
  obtain ⟨_, made, read⟩ := headerCarriesNumber
  obtain ⟨short, _, differs⟩ := made largest 0 g fits
  obtain ⟨_, back, _⟩ := made largest 11 g fits
  obtain ⟨_, front, places⟩ := (read found).2 1234 number
  exact ⟨fits, short, back, fits', differs 1234 11 g fits' (by decide), number, front,
    places 6 (by decide)⟩

end Segment
end SegmentPump
