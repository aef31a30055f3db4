/-! A segment is one payload of encoded media. Nothing in this library looks
inside it, apart from the sequence header that simulated payloads carry: eight
bytes, the most significant first. -/
namespace SegmentPump

structure Segment where
  bytes : ByteArray
  deriving Inhabited

namespace Segment

theorem ext {s t : Segment} (same : s.bytes.data = t.bytes.data) : s = t := by
  cases s
  cases t
  exact congrArg mk (ByteArray.ext same)

instance : DecidableEq Segment := fun s t =>
  decidable_of_iff (s.bytes.data = t.bytes.data) ⟨ext, fun same => same ▸ rfl⟩

def size (s : Segment) : Nat := s.bytes.size

def isEmpty (s : Segment) : Bool := s.size == 0

/-- Payloads can be megabytes, so a segment is described by its size alone. -/
def describe (s : Segment) : String := s!"Segment \x7b len: {s.size} \x7d"

end Segment

def totalSize (segments : List Segment) : Nat :=
  segments.foldr (fun s total => s.size + total) 0

@[simp] theorem totalSizeNil : totalSize [] = 0 := rfl

@[simp] theorem totalSizeCons (s : Segment) (rest : List Segment) :
    totalSize (s :: rest) = s.size + totalSize rest := rfl

@[simp] theorem totalSizeAppend (xs ys : List Segment) :
    totalSize (xs ++ ys) = totalSize xs + totalSize ys := by
  induction xs with
  | nil => simp
  | cons s rest ih => simp [ih, Nat.add_assoc]

namespace Header

/-- The `width` low bytes of `n`, the most significant first. -/
def write : (width : Nat) → (n : Nat) → List UInt8
  | 0, _ => []
  | width + 1, n => write width (n / 256) ++ [UInt8.ofNat (n % 256)]

def read (bytes : List UInt8) : Nat :=
  bytes.foldl (fun n b => n * 256 + b.toNat) 0

def size : Nat := 8

@[simp] theorem writeLength (width n : Nat) : (write width n).length = width := by
  induction width generalizing n with
  | zero => rfl
  | succ width ih => simp [write, ih]

@[simp] theorem readSnoc (bytes : List UInt8) (b : UInt8) :
    read (bytes ++ [b]) = read bytes * 256 + b.toNat := by
  simp [read]

end Header
end SegmentPump
