import Mathlib.Data.Nat.Digits.Defs
import SegmentPump.Text.Decimal

/-! Which texts are numbers of 64 bits. A numeral is one or more of the ten digits of
ASCII, with at most one plus sign before them, and stands for its value to base ten
however many zeros it begins with. `readWordIff` says that exactly these are read, as
long as the value has 64 bits. -/
namespace SegmentPump.Decimal

def placeValue (c : Char) : Nat := c.toNat - 48

structure Digits (digits : List Char) (n : Nat) : Prop where
  some : digits ≠ []
  decimal : ∀ c ∈ digits, c.isDigit = true
  value : Nat.ofDigits 10 (digits.reverse.map placeValue) = n

inductive Numeral : String → Nat → Prop where
  | plain {digits : List Char} {n : Nat} (read : Digits digits n) :
      Numeral (String.ofList digits) n
  | signed {digits : List Char} {n : Nat} (read : Digits digits n) :
      Numeral (String.ofList ('+' :: digits)) n

theorem utf8Char {c : Char} (ascii : c.toNat < 128) : String.utf8EncodeChar c = [c.toUInt8] := by
  refine String.utf8EncodeChar_eq_singleton (Char.utf8Size_eq_one_iff.mpr ?_)
  exact UInt32.le_iff_toNat_le.mpr (Nat.le_of_lt_succ ascii)

theorem utf8Ascii {chars : List Char} (ascii : ∀ c ∈ chars, c.toNat < 128) :
    (String.ofList chars).toUTF8.data.toList = chars.map Char.toUInt8 := by
  have each : chars.flatMap String.utf8EncodeChar = chars.map Char.toUInt8 := by
    induction chars with
    | nil => rfl
    | cons c rest ih =>
      obtain ⟨first, later⟩ := List.forall_mem_cons.mp ascii
      rw [List.flatMap_cons, utf8Char first, ih later, List.map_cons, List.singleton_append]
  have encoded : (String.ofList chars).toUTF8 = chars.utf8Encode := String.toByteArray_ofList
  rw [encoded, List.utf8Encode, List.toList_data_toByteArray, each]

theorem asciiByte {c : Char} (ascii : c.toNat < 128) : c.toUInt8.toNat = c.toNat := by
  have byte : c.toUInt8.toNat = c.toNat % 256 := UInt32.toNat_toUInt8 c.val
  rw [byte, Nat.mod_eq_of_lt (by omega)]

theorem digitIff (c : Char) : c.isDigit = true ↔ 48 ≤ c.toNat ∧ c.toNat ≤ 57 := by
  rw [Char.isDigit, Bool.and_eq_true, decide_eq_true_eq, decide_eq_true_eq]
  exact and_congr UInt32.le_iff_toNat_le UInt32.le_iff_toNat_le

theorem digitAscii {c : Char} (digit : c.isDigit = true) : c.toNat < 128 := by
  rw [digitIff] at digit
  omega

theorem digitRead {b : UInt8} {d : Nat} :
    digit? b = some d ↔ ∃ c : Char, c.isDigit = true ∧ c.toUInt8 = b ∧ placeValue c = d := by
  rw [digit?, Option.ite_none_right_eq_some, Option.some_inj, UInt8.le_iff_toNat_le,
    UInt8.le_iff_toNat_le]
  constructor
  · rintro ⟨inside, rfl⟩
    exact ⟨Char.ofUInt8 b, (digitIff _).mpr inside, UInt8.toUInt8_toUInt32 b, rfl⟩
  · rintro ⟨c, digit, rfl, rfl⟩
    rw [asciiByte (digitAscii digit)]
    exact ⟨(digitIff c).mp digit, rfl⟩

def valueFrom (n : Nat) (digits : List Char) : Nat :=
  digits.foldl (fun n c => 10 * n + placeValue c) n

theorem valueOfDigits (digits : List Char) :
    Nat.ofDigits 10 (digits.reverse.map placeValue) = valueFrom 0 digits := by
  rw [Nat.ofDigits_eq_foldr, List.map_reverse, List.foldr_reverse, List.foldl_map, valueFrom]
  simp only [Nat.cast_id, Nat.add_comm]

theorem valueGrows (n : Nat) (digits : List Char) : n ≤ valueFrom n digits := by
  induction digits generalizing n with
  | nil => exact Nat.le_refl n
  | cons c rest ih => exact Nat.le_trans (by omega) (ih (10 * n + placeValue c))

/- Once the value is too large, no further digit makes it smaller. -/
theorem readOnIff {bytes : List UInt8} {n m : Nat} (small : n < wordLimit) :
    readOn n bytes = some m ↔ m < wordLimit ∧ ∃ digits : List Char,
      (∀ c ∈ digits, c.isDigit = true) ∧ digits.map Char.toUInt8 = bytes ∧ valueFrom n digits = m := by
  induction bytes generalizing n with
  | nil =>
    constructor
    · intro read
      cases read
      exact ⟨small, [], nofun, rfl, rfl⟩
    · rintro ⟨_, digits, _, empty, rfl⟩
      rw [List.map_eq_nil_iff.mp empty]
      rfl
  | cons b rest ih =>
    constructor
    · intro read
      rw [readOn] at read
      split at read
      case h_2 => cases read
      case h_1 d digit =>
        rw [Option.ite_none_right_eq_some] at read
        obtain ⟨c, decimal, rfl, rfl⟩ := digitRead.mp digit
        obtain ⟨fits, digits, all, rfl, value⟩ := (ih read.1).mp read.2
        exact ⟨fits, c :: digits, List.forall_mem_cons.mpr ⟨decimal, all⟩, rfl, value⟩
    · rintro ⟨fits, digits, all, bytes, value⟩
      obtain ⟨c, digits, rfl, rfl, rfl⟩ := List.map_eq_cons_iff.mp bytes
      obtain ⟨decimal, all⟩ := List.forall_mem_cons.mp all
      have digit := digitRead.mpr ⟨c, decimal, rfl, rfl⟩
      have room : 10 * n + placeValue c < wordLimit :=
        Nat.lt_of_le_of_lt (valueGrows _ digits) (value ▸ fits)
      rw [readOn, digit]
      simp only [if_pos room]
      exact (ih room).mpr ⟨fits, digits, all, rfl, value⟩

theorem readDigitsIff {bytes : List UInt8} {n : Nat} :
    readDigits bytes = some n ↔ n < wordLimit ∧ ∃ digits, Digits digits n ∧
      digits.map Char.toUInt8 = bytes := by
  cases bytes with
  | nil =>
    refine ⟨nofun, ?_⟩
    rintro ⟨_, digits, read, empty⟩
    exact absurd (List.map_eq_nil_iff.mp empty) read.some
  | cons b rest =>
    rw [readDigits, readOnIff (by decide)]
    · refine and_congr_right fun _ => exists_congr fun digits => ?_
      constructor
      · rintro ⟨decimal, bytes, value⟩
        refine ⟨⟨?_, decimal, (valueOfDigits digits).trans value⟩, bytes⟩
        rintro rfl
        cases bytes
      · rintro ⟨read, bytes⟩
        exact ⟨read.decimal, bytes, (valueOfDigits digits).symm.trans read.value⟩
    · exact nofun

theorem unsignedDigits {bytes : List UInt8} (unsigned : ∀ rest, bytes ≠ 43 :: rest) :
    readUnsigned bytes = readDigits bytes := by
  unfold readUnsigned
  split
  case h_1 rest => exact absurd rfl (unsigned rest)
  case h_2 => rfl

theorem plainUnsigned {digits : List Char} {n : Nat} (read : Digits digits n) :
    ∀ rest, digits.map Char.toUInt8 ≠ 43 :: rest := by
  intro rest same
  obtain ⟨c, later, rfl, plus, _⟩ := List.map_eq_cons_iff.mp same
  have digit := read.decimal c List.mem_cons_self
  have byte := asciiByte (digitAscii digit)
  rw [digitIff, ← byte, plus] at digit
  exact absurd digit.1 (by decide)

theorem readUnsignedIff {bytes : List UInt8} {n : Nat} :
    readUnsigned bytes = some n ↔
      n < wordLimit ∧ ∃ text, Numeral text n ∧ text.toUTF8.data.toList = bytes := by
  have plainBytes {digits : List Char} {n : Nat} (read : Digits digits n) :
      (String.ofList digits).toUTF8.data.toList = digits.map Char.toUInt8 :=
    utf8Ascii fun c member => digitAscii (read.decimal c member)
  have signedBytes {digits : List Char} {n : Nat} (read : Digits digits n) :
      (String.ofList ('+' :: digits)).toUTF8.data.toList = 43 :: digits.map Char.toUInt8 :=
    utf8Ascii (List.forall_mem_cons.mpr
      ⟨by decide, fun c member => digitAscii (read.decimal c member)⟩)
  constructor
  · intro parsed
    unfold readUnsigned at parsed
    split at parsed
    case h_1 rest =>
      obtain ⟨fits, digits, read, rfl⟩ := readDigitsIff.mp parsed
      exact ⟨fits, _, .signed read, signedBytes read⟩
    case h_2 =>
      obtain ⟨fits, digits, read, rfl⟩ := readDigitsIff.mp parsed
      exact ⟨fits, _, .plain read, plainBytes read⟩
  · rintro ⟨fits, text, numeral, rfl⟩
    cases numeral with
    | plain read =>
      rw [plainBytes read, unsignedDigits (plainUnsigned read)]
      exact readDigitsIff.mpr ⟨fits, _, read, rfl⟩
    | signed read =>
      rw [signedBytes read, readUnsigned]
      exact readDigitsIff.mpr ⟨fits, _, read, rfl⟩

theorem readWordIff {bytes : ByteArray} {w : UInt64} :
    readWord bytes = some w ↔ ∃ text, Numeral text w.toNat ∧ text.toUTF8 = bytes := by
  rw [readWord, Option.map_eq_some_iff]
  constructor
  · rintro ⟨n, read, rfl⟩
    obtain ⟨fits, text, numeral, bytes⟩ := readUnsignedIff.mp read
    rw [UInt64.toNat_ofNat_of_lt' fits]
    exact ⟨text, numeral, ByteArray.ext (Array.toList_inj.mp bytes)⟩
  · rintro ⟨text, numeral, rfl⟩
    exact ⟨w.toNat, readUnsignedIff.mpr ⟨w.toNat_lt, text, numeral, rfl⟩, UInt64.ofNat_toNat⟩

end SegmentPump.Decimal
