/-
The grammar of encoded values.

A value is a header byte and a content.  The header byte holds the type in its
low five bits and, for numbers and indices, the length of the content less one
in its high three bits.  The relation `Encodes` says which byte lists write
which values; it mentions no reader, allows every width and every
variable-length number that the format allows, and ignores the high bits where
the format gives them no meaning.
-/

import DexCensus.Dex.EncodedValue
import DexCensus.Proofs.Uleb128

namespace DexCensus

-- Powers of numbers are those of the core library, whatever else is imported.
attribute [local instance (high)] instPowNat

namespace Dex

open Grammar

/-- Bytes that write an integer in two's complement, the least significant
byte first. -/
structure TwosComplement (number : Int) (written : List UInt8) : Prop where
  least : -(2 ^ (8 * written.length - 1)) ≤ number
  greatest : number < 2 ^ (8 * written.length - 1)
  residue : number % 2 ^ (8 * written.length) = LittleEndian.number written

structure Signed (width : Nat) (number : Int) (written : List UInt8) :
    Prop where
  positive : 1 ≤ written.length
  within : written.length ≤ width
  meant : TwosComplement number written

structure Unsigned (width number : Nat) (written : List UInt8) : Prop where
  positive : 1 ≤ written.length
  within : written.length ≤ width
  meant : number = LittleEndian.number written

/-- A bit pattern by its high-order bytes, the other ones being zero. -/
structure HighOrder (width pattern : Nat) (written : List UInt8) : Prop where
  positive : 1 ≤ written.length
  within : written.length ≤ width
  meant : LittleEndian.bytes width pattern =
    List.replicate (width - written.length) 0 ++ written

def EncodedValue.typeCode : EncodedValue → Nat
  | .byte _ => 0x00
  | .short _ => 0x02
  | .char _ => 0x03
  | .int _ => 0x04
  | .long _ => 0x06
  | .float _ => 0x10
  | .double _ => 0x11
  | .methodType _ => 0x15
  | .methodHandle _ => 0x16
  | .string _ => 0x17
  | .type _ => 0x18
  | .field _ => 0x19
  | .method _ => 0x1a
  | .enum _ => 0x1b
  | .array _ => 0x1c
  | .nested _ _ => 0x1d
  | .null => 0x1e
  | .bool _ => 0x1f

/-- The content of a number, a bit pattern or an index.  Other values have no
content of this kind. -/
def SizedContent : Grammar EncodedValue
  | .byte value, written => Signed 1 value.toInt written
  | .short value, written => Signed 2 value.toInt written
  | .char value, written => Unsigned 2 value.toNat written
  | .int value, written => Signed 4 value.toInt written
  | .long value, written => Signed 8 value.toInt written
  | .float bits, written => HighOrder 4 bits.toNat written
  | .double bits, written => HighOrder 8 bits.toNat written
  | .methodType index, written => Unsigned 4 index.toNat written
  | .methodHandle index, written => Unsigned 4 index.toNat written
  | .string index, written => Unsigned 4 index.toNat written
  | .type index, written => Unsigned 4 index.toNat written
  | .field index, written => Unsigned 4 index.toNat written
  | .method index, written => Unsigned 4 index.toNat written
  | .enum index, written => Unsigned 4 index.toNat written
  | .array _, _ | .nested _ _, _ | .null, _ | .bool _, _ => False

theorem SizedContent.typeCode_lt {value : EncodedValue} {written : List UInt8}
    (sized : SizedContent value written) : value.typeCode < 0x1c := by
  cases value with
  | array values => exact sized.elim
  | nested type elements => exact sized.elim
  | null => exact sized.elim
  | bool value => exact sized.elim
  | _ => simp [EncodedValue.typeCode]

inductive NamedValue (value : Grammar EncodedValue) : Grammar Element
  | mk {name : UInt32} {named : EncodedValue} {front back : List UInt8} :
      Uleb128.Written name front → value named back →
        NamedValue value (name, named) (front ++ back)

/-- The bytes of a value, of any depth. -/
inductive Encodes : Grammar EncodedValue
  | sized {value : EncodedValue} {header : UInt8} {written : List UInt8} :
      header.toNat % 32 = value.typeCode →
      header.toNat / 32 + 1 = written.length →
      SizedContent value written →
        Encodes value (header :: written)
  | array {values : List EncodedValue} {header : UInt8} {count : UInt32}
      {size written : List UInt8} :
      header.toNat % 32 = 0x1c →
      Uleb128.Written count size → count.toNat = values.length →
      Sequence Encodes values written →
        Encodes (.array values) (header :: (size ++ written))
  | nested {type : UInt32} {elements : List Element} {header : UInt8}
      {count : UInt32} {front size written : List UInt8} :
      header.toNat % 32 = 0x1d →
      Uleb128.Written type front →
      Uleb128.Written count size → count.toNat = elements.length →
      Sequence (NamedValue Encodes) elements written →
        Encodes (.nested type elements) (header :: (front ++ (size ++ written)))
  | null {header : UInt8} :
      header.toNat % 32 = 0x1e → Encodes .null [header]
  | bool {value : Bool} {header : UInt8} :
      header.toNat % 32 = 0x1f → (value = true ↔ header.toNat / 32 ≠ 0) →
        Encodes (.bool value) [header]

theorem Encodes.length_pos {value : EncodedValue} {written : List UInt8}
    (encoded : Encodes value written) : 0 < written.length := by
  cases encoded <;> simp

/-! ### The same numbers as functions of their bytes -/

theorem pow_bytes_eq_pow_bits (length : Nat) : 256 ^ length = 2 ^ (8 * length) := by
  have base : 256 = 2 ^ 8 := rfl
  rw [base, ← Nat.pow_mul]

theorem pow_bits_eq_double {length : Nat} (positive : 1 ≤ length) :
    2 ^ (8 * length) = 2 * 2 ^ (8 * length - 1) := by
  rw [← Nat.pow_succ']
  congr 1
  omega

/-- The sign extension of some bytes is the one integer that they write in
two's complement. -/
theorem signedNumber_eq_iff {written : List UInt8} (positive : 1 ≤ written.length)
    (number : Int) :
    signedNumber written = number ↔ TwosComplement number written := by
  have double := pow_bits_eq_double positive
  have bound := LittleEndian.number_lt written
  have whole : ((2 ^ (8 * written.length) : Nat) : Int) =
      2 ^ (8 * written.length) := Int.natCast_pow _ _
  have half : ((2 ^ (8 * written.length - 1) : Nat) : Int) =
      2 ^ (8 * written.length - 1) := Int.natCast_pow _ _
  rw [pow_bytes_eq_pow_bits] at bound
  unfold signedNumber
  rw [pow_bytes_eq_pow_bits, Int.bmod_eq_iff (Nat.two_pow_pos _)]
  constructor
  · intro ⟨low, high, divides⟩
    refine ⟨by omega, by omega, ?_⟩
    rw [← whole, Int.emod_eq_emod_iff_emod_sub_eq_zero.mpr
      (Int.emod_eq_zero_of_dvd divides)]
    exact Int.emod_eq_of_lt (by omega) (by omega)
  · intro ⟨low, high, residue⟩
    rw [← whole] at residue
    refine ⟨by omega, by omega, Int.dvd_of_emod_eq_zero ?_⟩
    rw [← residue, Int.sub_emod, Int.emod_emod, Int.sub_self, Int.zero_emod]

theorem number_append (front back : List UInt8) :
    LittleEndian.number (front ++ back) =
      LittleEndian.number front
        + 256 ^ front.length * LittleEndian.number back := by
  induction front with
  | nil => simp [LittleEndian.number]
  | cons byte rest ih =>
      rw [List.cons_append, LittleEndian.number, LittleEndian.number, ih,
        List.length_cons, Nat.pow_succ', Nat.mul_add, Nat.mul_assoc,
        Nat.add_assoc]

@[simp] theorem number_replicate_zero (count : Nat) :
    LittleEndian.number (List.replicate count 0) = 0 := by
  induction count with
  | zero => rfl
  | succ count ih =>
      rw [List.replicate_succ, LittleEndian.number, ih]
      rfl

theorem number_injective {left right : List UInt8}
    (sameLength : left.length = right.length)
    (sameNumber : LittleEndian.number left = LittleEndian.number right) :
    left = right := by
  induction left generalizing right with
  | nil => exact (List.length_eq_zero_iff.mp sameLength.symm).symm
  | cons byte rest ih =>
      cases right with
      | nil => cases sameLength
      | cons other others =>
          have small := byte.toNat_lt
          have otherSmall := other.toNat_lt
          simp only [LittleEndian.number] at sameNumber
          have sameByte : byte = other := UInt8.toNat_inj.mp (by omega)
          have sameRest : LittleEndian.number rest =
              LittleEndian.number others := by omega
          rw [sameByte, ih (Nat.succ.inj sameLength) sameRest]

theorem leftAligned_eq_iff {width : Nat} {written : List UInt8}
    (within : written.length ≤ width) {pattern : Nat}
    (fits : pattern < 256 ^ width) :
    leftAligned width written = pattern ↔
      LittleEndian.bytes width pattern =
        List.replicate (width - written.length) 0 ++ written := by
  have value : LittleEndian.number
      (List.replicate (width - written.length) 0 ++ written) =
        leftAligned width written := by
    rw [number_append, number_replicate_zero, List.length_replicate,
      Nat.zero_add, Nat.mul_comm]
    rfl
  have inverse : LittleEndian.number (LittleEndian.bytes width pattern) =
      pattern := by
    rw [LittleEndian.number_bytes, Nat.mod_eq_of_lt fits]
  constructor
  · intro same
    apply number_injective
    · rw [LittleEndian.length_bytes, List.length_append, List.length_replicate]
      omega
    · rw [inverse, value, same]
  · intro same
    rw [← inverse, same, value]

theorem leftAligned_lt {width : Nat} {written : List UInt8}
    (within : written.length ≤ width) :
    leftAligned width written < 256 ^ width := by
  have bound := LittleEndian.number_lt written
  have split : 256 ^ written.length * 256 ^ (width - written.length) =
      256 ^ width := by
    rw [← Nat.pow_add]
    congr 1
    omega
  rw [← split]
  exact Nat.mul_lt_mul_of_pos_right bound (Nat.pow_pos (by decide))

/-- The eight bytes of a field, of which some are written from a place on and
the others are zero. -/
def fieldBuffer (start : Nat) (written : List UInt8) : List UInt8 :=
  List.replicate start 0 ++
    (written ++ List.replicate (8 - (start + written.length)) 0)

@[simp] theorem number_fieldBuffer_zero (written : List UInt8) :
    LittleEndian.number (fieldBuffer 0 written) =
      LittleEndian.number written := by
  rw [fieldBuffer, List.replicate_zero, List.nil_append, number_append,
    number_replicate_zero, Nat.mul_zero, Nat.add_zero]

private theorem bmod_mul_ediv {number half unit : Nat}
    (fits : number < 2 * half)
    (positive : 0 < unit) :
    Int.bmod (number * unit : Nat) (2 * half * unit) / unit =
      Int.bmod number (2 * half) := by
  have scaled : number * unit < 2 * half * unit :=
    Nat.mul_lt_mul_of_pos_right fits positive
  have inner : (number : Int) % (2 * half : Nat) = number :=
    Int.emod_eq_of_lt (by omega) (by exact_mod_cast fits)
  have outer : ((number * unit : Nat) : Int) % (2 * half * unit : Nat) =
      (number * unit : Nat) :=
    Int.emod_eq_of_lt (by omega) (by exact_mod_cast scaled)
  have middle : (2 * half * unit : Nat) = 2 * (half * unit) := by
    rw [Nat.mul_assoc]
  have noUnit : (unit : Int) ≠ 0 := by omega
  rw [Int.bmod_def, Int.bmod_def, inner, outer]
  by_cases low : number < half
  · have lowScaled : number * unit < half * unit :=
      Nat.mul_lt_mul_of_pos_right low positive
    rw [if_pos (by omega), if_pos (by omega), Int.natCast_mul]
    exact Int.mul_ediv_cancel _ noUnit
  · have highScaled : half * unit ≤ number * unit :=
      Nat.mul_le_mul_right unit (Nat.le_of_not_lt low)
    rw [if_neg (by omega), if_neg (by omega), Int.natCast_mul, Int.natCast_mul,
      ← Int.sub_mul]
    exact Int.mul_ediv_cancel _ noUnit

private theorem toBitVec_shift : ∀ count < 9, 0 < count →
    (Int64.ofNat (64 - 8 * count)).toBitVec.smod 64 =
      BitVec.ofNat 64 (64 - 8 * count) := by
  decide

/-- A signed number is what two shifts make of its bytes in a field. -/
theorem signedNumber_eq_shifted {written : List UInt8}
    (positive : 1 ≤ written.length) (few : written.length ≤ 8) :
    let field := Int64.ofNat (LittleEndian.number (fieldBuffer 0 written))
    let shift := Int64.ofNat (64 - 8 * written.length)
    ((field <<< shift) >>> shift).toInt = signedNumber written := by
  have bound := LittleEndian.number_lt written
  have double := pow_bits_eq_double positive
  rw [pow_bytes_eq_pow_bits, double] at bound
  have whole : 2 * 2 ^ (8 * written.length - 1) *
      2 ^ (64 - 8 * written.length) = 2 ^ 64 := by
    rw [← double, ← Nat.pow_add]
    congr 1
    omega
  have small : LittleEndian.number written < 2 ^ 64 := by
    rw [← whole]
    exact Nat.lt_of_lt_of_le bound
      (Nat.le_mul_of_pos_right _ (Nat.two_pow_pos _))
  have amount := toBitVec_shift written.length (by omega) (by omega)
  have inside : (BitVec.ofNat 64 (64 - 8 * written.length)).toNat =
      64 - 8 * written.length := by
    rw [BitVec.toNat_ofNat]
    omega
  dsimp only
  rw [number_fieldBuffer_zero, ← Int64.toInt_toBitVec,
    Int64.toBitVec_shiftRight, Int64.toBitVec_shiftLeft, amount,
    BitVec.sshiftRight', BitVec.toInt_sshiftRight, BitVec.shiftLeft_eq',
    BitVec.toInt_shiftLeft, Int.shiftRight_eq_div_pow, inside,
    Int64.toBitVec_ofNat', BitVec.toNat_ofNat, Nat.mod_eq_of_lt small,
    Nat.shiftLeft_eq, ← whole, bmod_mul_ediv bound (Nat.two_pow_pos _),
    signedNumber, pow_bytes_eq_pow_bits, double]

/-- A pattern is what its bytes at the high end of a field write. -/
theorem leftAligned_eq_field {width : Nat} {written : List UInt8}
    (within : written.length ≤ width) :
    LittleEndian.number
        ((fieldBuffer (width - written.length) written).take width) =
      leftAligned width written := by
  have taken : (fieldBuffer (width - written.length) written).take width =
      List.replicate (width - written.length) 0 ++ written := by
    rw [fieldBuffer, ← List.append_assoc]
    exact List.take_left' (by simp; omega)
  rw [taken, number_append, number_replicate_zero, List.length_replicate,
    Nat.zero_add, Nat.mul_comm, leftAligned]

theorem Unsigned.lt_pow {width number : Nat} {written : List UInt8}
    (unsigned : Unsigned width number written) : number < 256 ^ width := by
  rw [unsigned.meant]
  exact Nat.lt_of_lt_of_le (LittleEndian.number_lt written)
    (Nat.pow_le_pow_right (by decide) unsigned.within)

theorem Signed.bounds {width : Nat} {number : Int} {written : List UInt8}
    (signed : Signed width number written) :
    -(2 ^ (8 * width - 1)) ≤ number ∧ number < 2 ^ (8 * width - 1) := by
  have wider : (2 : Int) ^ (8 * written.length - 1) ≤ 2 ^ (8 * width - 1) := by
    have within := signed.within
    have natural : 2 ^ (8 * written.length - 1) ≤ 2 ^ (8 * width - 1) :=
      Nat.pow_le_pow_right (by decide) (by omega)
    exact_mod_cast natural
  have low := signed.meant.least
  have high := signed.meant.greatest
  omega

end Dex
end DexCensus
