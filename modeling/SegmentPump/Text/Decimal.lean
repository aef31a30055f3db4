/-! Decimal numbers as settings and options write them, and quotients written
with a fixed number of places. -/
namespace SegmentPump.Decimal

def digit? (b : UInt8) : Option Nat :=
  if 48 ≤ b ∧ b ≤ 57 then some (b.toNat - 48) else none

def wordLimit : Nat := 18446744073709551616

def readOn (n : Nat) : List UInt8 → Option Nat
  | [] => some n
  | b :: rest =>
    match digit? b with
    | some d => if 10 * n + d < wordLimit then readOn (10 * n + d) rest else none
    | none => none

def readDigits : List UInt8 → Option Nat
  | [] => none
  | bytes => readOn 0 bytes

def readUnsigned : List UInt8 → Option Nat
  | 43 :: rest => readDigits rest
  | bytes => readDigits bytes

def readWord (bytes : ByteArray) : Option UInt64 :=
  (readUnsigned bytes.data.toList).map UInt64.ofNat

/-- The whole number nearest to a quotient; a half goes to the even neighbour. -/
def roundDiv (num den : Nat) : Nat :=
  let q := num / den
  let r := num % den
  if 2 * r > den || (2 * r == den && q % 2 == 1) then q + 1 else q

def padLeft (filler : Char) (width : Nat) (text : String) : String :=
  "".pushn filler (width - text.length) ++ text

def fixed (places num den : Nat) : String :=
  let unit := Nat.pow 10 places
  let scaled := roundDiv (num * unit) den
  s!"{scaled / unit}." ++ padLeft '0' places (toString (scaled % unit))

end SegmentPump.Decimal
