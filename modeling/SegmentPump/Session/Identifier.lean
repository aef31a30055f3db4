/-! The identifier of a session: a random 128-bit number, six bits of which are
fixed to mark it as random, written in hexadecimal digits in five groups. -/
namespace SegmentPump

structure Identifier where
  entropy : BitVec 128
  deriving DecidableEq, Repr

namespace Identifier

/-- The digit at a place, counted from the front. The thirteenth digit names the
version, and the top two bits of the seventeenth the variant. -/
def digit (id : Identifier) (place : Nat) : Nat :=
  let d := id.entropy.toNat / Nat.pow 16 (31 - place) % 16
  if place = 12 then 4 else if place = 16 then 8 + d % 4 else d

def group (id : Identifier) (first count : Nat) : String :=
  String.ofList ((List.range count).map fun i => Nat.digitChar (id.digit (first + i)))

def text (id : Identifier) : String :=
  "-".intercalate
    [id.group 0 8, id.group 8 4, id.group 12 4, id.group 16 4, id.group 20 12]

end Identifier
end SegmentPump
