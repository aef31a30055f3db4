/-! The keystream behind the generator: ChaCha with eight rounds, a block of
sixteen words for each value of a 64-bit counter, and a nonce of zero. -/
namespace SegmentPump

structure Key where
  k0 : UInt32
  k1 : UInt32
  k2 : UInt32
  k3 : UInt32
  k4 : UInt32
  k5 : UInt32
  k6 : UInt32
  k7 : UInt32
  deriving DecidableEq, Repr

namespace Keystream

structure Grid where
  a0 : UInt32
  a1 : UInt32
  a2 : UInt32
  a3 : UInt32
  b0 : UInt32
  b1 : UInt32
  b2 : UInt32
  b3 : UInt32
  c0 : UInt32
  c1 : UInt32
  c2 : UInt32
  c3 : UInt32
  d0 : UInt32
  d1 : UInt32
  d2 : UInt32
  d3 : UInt32
  deriving DecidableEq, Repr

@[inline] def rotateLeft (w n : UInt32) : UInt32 := (w <<< n) ||| (w >>> (32 - n))

structure Quarter where
  a : UInt32
  b : UInt32
  c : UInt32
  d : UInt32

@[inline] def quarterRound (a b c d : UInt32) : Quarter :=
  let a := a + b
  let d := rotateLeft (d ^^^ a) 16
  let c := c + d
  let b := rotateLeft (b ^^^ c) 12
  let a := a + b
  let d := rotateLeft (d ^^^ a) 8
  let c := c + d
  let b := rotateLeft (b ^^^ c) 7
  { a, b, c, d }

def doubleRound (g : Grid) : Grid :=
  let q0 := quarterRound g.a0 g.b0 g.c0 g.d0
  let q1 := quarterRound g.a1 g.b1 g.c1 g.d1
  let q2 := quarterRound g.a2 g.b2 g.c2 g.d2
  let q3 := quarterRound g.a3 g.b3 g.c3 g.d3
  let r0 := quarterRound q0.a q1.b q2.c q3.d
  let r1 := quarterRound q1.a q2.b q3.c q0.d
  let r2 := quarterRound q2.a q3.b q0.c q1.d
  let r3 := quarterRound q3.a q0.b q1.c q2.d
  { a0 := r0.a, a1 := r1.a, a2 := r2.a, a3 := r3.a
    b0 := r3.b, b1 := r0.b, b2 := r1.b, b3 := r2.b
    c0 := r2.c, c1 := r3.c, c2 := r0.c, c3 := r1.c
    d0 := r1.d, d1 := r2.d, d2 := r3.d, d3 := r0.d }

def start (key : Key) (counter : UInt64) : Grid where
  a0 := 0x61707865
  a1 := 0x3320646e
  a2 := 0x79622d32
  a3 := 0x6b206574
  b0 := key.k0
  b1 := key.k1
  b2 := key.k2
  b3 := key.k3
  c0 := key.k4
  c1 := key.k5
  c2 := key.k6
  c3 := key.k7
  d0 := counter.toUInt32
  d1 := (counter >>> 32).toUInt32
  d2 := 0
  d3 := 0

structure Block where
  first : UInt32
  later : List UInt32

def block (key : Key) (counter : UInt64) : Block :=
  let s := start key counter
  let g := doubleRound (doubleRound (doubleRound (doubleRound s)))
  { first := g.a0 + s.a0
    later := [g.a1 + s.a1, g.a2 + s.a2, g.a3 + s.a3,
      g.b0 + s.b0, g.b1 + s.b1, g.b2 + s.b2, g.b3 + s.b3,
      g.c0 + s.c0, g.c1 + s.c1, g.c2 + s.c2, g.c3 + s.c3,
      g.d0 + s.d0, g.d1 + s.d1, g.d2 + s.d2, g.d3 + s.d3] }

end Keystream
end SegmentPump
