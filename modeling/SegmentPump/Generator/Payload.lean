import SegmentPump.Generator
import SegmentPump.Segment

/-! Simulated payloads: a sequence header and random filler. -/
namespace SegmentPump

/-- A segment that carries `sequence` and is `size` bytes long, or as long as
the header if that is longer. -/
def Segment.simulated (sequence size : Nat) (g : Generator) : Segment × Generator :=
  let (filler, g) := g.bytes (size - Header.size)
  (⟨⟨(Header.write Header.size sequence).toArray⟩ ++ filler⟩, g)

/-- The bounds of a payload's size. Picking a size needs the number after the
largest one, which does not exist at the top of the 64-bit range. -/
structure SizeRange where
  smallest : UInt64
  largest : UInt64
  deriving DecidableEq, Repr

structure SizeOverflow where
  deriving DecidableEq, Repr

def SizeOverflow.message (_ : SizeOverflow) : String := "attempt to add with overflow"

namespace SizeRange

def limit (r : SizeRange) : Except SizeOverflow UInt64 :=
  if r.largest = 18446744073709551615 then .error {} else .ok (r.largest + 1)

def segment (r : SizeRange) (sequence : Nat) (g : Generator) :
    Except SizeOverflow (Segment × Generator) :=
  match r.limit with
  | .error overflow => .error overflow
  | .ok limit =>
    let (size, g) := g.range r.smallest limit
    .ok (Segment.simulated sequence size.toNat g)

end SizeRange
end SegmentPump
