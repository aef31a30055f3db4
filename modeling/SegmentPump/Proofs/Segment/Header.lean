import Mathlib.Algebra.Group.Nat.Defs
import SegmentPump.Segment

/-! Sequence headers are numbers to base 256: `readWrite` and `writeRead` say that
the two directions undo each other. -/
namespace SegmentPump.Header

theorem readWrite (width n : Nat) : read (write width n) = n % 256 ^ width := by
  induction width generalizing n with
  | zero => simp [write, read, Nat.mod_one]
  | succ width ih =>
    have byte : (UInt8.ofNat (n % 256)).toNat = n % 256 := by simp
    rw [write, readSnoc, ih, byte, Nat.pow_succ, Nat.mul_comm (256 ^ width), Nat.mod_mul]
    omega

theorem foldBound (bytes : List UInt8) (n : Nat) :
    bytes.foldl (fun n b => n * 256 + b.toNat) n < (n + 1) * 256 ^ bytes.length := by
  induction bytes generalizing n with
  | nil => simp
  | cons b rest ih =>
    have := b.toNat_lt
    have step : (n * 256 + b.toNat + 1) * 256 ^ rest.length ≤ (n + 1) * 256 * 256 ^ rest.length :=
      Nat.mul_le_mul_right _ (by omega)
    simp only [List.foldl_cons, List.length_cons, Nat.pow_succ]
    calc _ < _ := ih _
      _ ≤ _ := step
      _ = _ := by rw [Nat.mul_assoc, Nat.mul_comm 256]

theorem readBound (bytes : List UInt8) : read bytes < 256 ^ bytes.length := by
  simpa [read] using foldBound bytes 0

theorem foldSplit (bytes : List UInt8) (n : Nat) :
    bytes.foldl (fun n b => n * 256 + b.toNat) n = n * 256 ^ bytes.length + read bytes := by
  induction bytes generalizing n with
  | nil => simp [read]
  | cons b rest ih =>
    have tail := ih b.toNat
    simp only [read, List.foldl_cons, List.length_cons, Nat.pow_succ, Nat.zero_mul, Nat.zero_add] at *
    rw [ih, tail, Nat.add_mul, Nat.mul_assoc, Nat.mul_comm 256]
    omega

theorem writeCons (width n : Nat) :
    write (width + 1) n = UInt8.ofNat (n / 256 ^ width % 256) :: write width n := by
  induction width generalizing n with
  | zero => simp [write]
  | succ width ih =>
    rw [write, ih, Nat.div_div_eq_div_mul, ← Nat.pow_succ']
    simp [write]

theorem writeAt {width place : Nat} (inside : place < width) (n : Nat) :
    (write width n)[place]? = some (UInt8.ofNat (n / 256 ^ (width - 1 - place) % 256)) := by
  induction width generalizing place with
  | zero => exact absurd inside (Nat.not_lt_zero place)
  | succ width ih =>
    rw [writeCons]
    cases place with
    | zero => rfl
    | succ place =>
      rw [List.getElem?_cons_succ, ih (Nat.lt_of_succ_lt_succ inside)]
      congr 5
      omega

theorem writeFold (bytes : List UInt8) (n : Nat) :
    write bytes.length (bytes.foldl (fun n b => n * 256 + b.toNat) n) = bytes := by
  induction bytes generalizing n with
  | nil => rfl
  | cons b rest ih =>
    have high : (n * 256 + b.toNat) * 256 ^ rest.length + read rest =
        read rest + 256 ^ rest.length * (n * 256 + b.toNat) := by
      rw [Nat.mul_comm, Nat.add_comm]
    have byte : (n * 256 + b.toNat) % 256 = b.toNat := by
      have := b.toNat_lt
      omega
    rw [List.length_cons, writeCons, List.foldl_cons, ih, foldSplit, high,
      Nat.add_mul_div_left _ _ (Nat.pow_pos (by decide)), Nat.div_eq_of_lt (readBound rest),
      Nat.zero_add, byte, UInt8.ofNat_toNat]

theorem writeRead (bytes : List UInt8) : write bytes.length (read bytes) = bytes :=
  writeFold bytes 0

end SegmentPump.Header
