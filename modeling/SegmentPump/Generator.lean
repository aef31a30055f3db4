import SegmentPump.Generator.Keystream

/-! A generator of reproducible random values. The seed fixes every value; each
draw takes the next words of the keystream and returns the generator behind
them. -/
namespace SegmentPump

structure Generator where
  seed : UInt64
  key : Key
  counter : UInt64 := 0
  pending : List UInt32 := []
  deriving DecidableEq, Repr

namespace Generator

@[inline] def rotateRight (w n : UInt32) : UInt32 := (w >>> n) ||| (w <<< (32 - n))

def spread (s : UInt64) : UInt64 := s * 6364136223846793005 + 11634580027462260723

def keyWord (s : UInt64) : UInt32 :=
  rotateRight (((s >>> 18) ^^^ s) >>> 27).toUInt32 (s >>> 59).toUInt32

def keyOf (seed : UInt64) : Key :=
  let s0 := spread seed
  let s1 := spread s0
  let s2 := spread s1
  let s3 := spread s2
  let s4 := spread s3
  let s5 := spread s4
  let s6 := spread s5
  let s7 := spread s6
  { k0 := keyWord s0, k1 := keyWord s1, k2 := keyWord s2, k3 := keyWord s3
    k4 := keyWord s4, k5 := keyWord s5, k6 := keyWord s6, k7 := keyWord s7 }

def ofSeed (seed : UInt64) : Generator := { seed, key := keyOf seed }

def word (g : Generator) : UInt32 × Generator :=
  match g.pending with
  | w :: rest => (w, { g with pending := rest })
  | [] =>
    let b := Keystream.block g.key g.counter
    (b.first, { g with counter := g.counter + 1, pending := b.later })

def longWord (g : Generator) : UInt64 × Generator :=
  let (low, g) := g.word
  let (high, g) := g.word
  ((high.toUInt64 <<< 32) ||| low.toUInt64, g)

def unit (g : Generator) : Float × Generator :=
  let (n, g) := g.longWord
  ((n >>> 11).toFloat / 9007199254740992.0, g)

/-- A number in `[low, high)`. An empty range gives `low` and draws nothing. -/
def range (g : Generator) (low high : UInt64) : UInt64 × Generator :=
  if high ≤ low then (low, g)
  else
    let (n, g) := g.longWord
    (low + n % (high - low), g)

def chance (g : Generator) (probability : Float) : Bool × Generator :=
  let (x, g) := g.unit
  (x < probability, g)

def pushWord (out : ByteArray) (w : UInt32) : ByteArray :=
  (((out.push w.toUInt8).push (w >>> 8).toUInt8).push (w >>> 16).toUInt8).push (w >>> 24).toUInt8

def pushWords : Nat → ByteArray → Generator → ByteArray × Generator
  | 0, out, g => (out, g)
  | count + 1, out, g =>
    let (w, g) := g.word
    pushWords count (pushWord out w) g

/-- `count` random bytes: whole words, the low byte first, of which the last one
may not be used up. -/
def bytes (g : Generator) (count : Nat) : ByteArray × Generator :=
  let (out, g) := pushWords ((count + 3) / 4) (.emptyWithCapacity (count + 3)) g
  (out.extract 0 count, g)

end Generator
end SegmentPump
