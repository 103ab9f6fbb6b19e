/-
Variable-length 32-bit numbers.

A number is a run of bytes that carry seven bits each, the least significant
first.  The high bit of a byte says that another one follows.  A run has at
most five bytes, and of its 35 bits the lowest 32 count.

`decode` reads any such run, also one that is longer than it has to be;
`encode` writes the shortest one.
-/

import DexCensus.Reader

namespace DexCensus

-- Powers of numbers are those of the core library, whatever else is imported.
attribute [local instance (high)] instPowNat

namespace Uleb128

def decodeGroups : Nat → List UInt8 → Except Fault (Nat × Nat)
  | index, [] => .error (.varintTruncated index)
  | index, byte :: rest =>
      if byte < 0x80 then .ok (byte.toNat, 1)
      else if index = 4 then .error .varintOverlong
      else
        match decodeGroups (index + 1) rest with
        | .ok (value, size) => .ok (byte.toNat % 128 + 128 * value, size + 1)
        | .error fault => .error fault

def decode (encoded : List UInt8) : Except Fault (UInt32 × Nat) :=
  match decodeGroups 0 encoded with
  | .ok (value, size) => .ok (UInt32.ofNat value, size)
  | .error fault => .error fault

/-- The shortest run for a value, of at most `more + 1` bytes. -/
def encodeGroups : Nat → Nat → List UInt8
  | 0, value => [UInt8.ofNat value]
  | more + 1, value =>
      if value < 128 then [UInt8.ofNat value]
      else UInt8.ofNat (value % 128 + 128) :: encodeGroups more (value / 128)

def encode (value : UInt32) : List UInt8 :=
  encodeGroups 4 value.toNat

theorem decodeGroups_encodeGroups (more value : Nat) (rest : List UInt8)
    (fits : value < 128 ^ (more + 1)) (index : Nat) (room : index + more ≤ 4) :
    decodeGroups index (encodeGroups more value ++ rest) =
      .ok (value, (encodeGroups more value).length) := by
  induction more generalizing value index with
  | zero =>
      have small : value < 128 := by simpa using fits
      have byteValue : (UInt8.ofNat value).toNat = value := by
        simp only [UInt8.toNat_ofNat']
        omega
      have low : UInt8.ofNat value < 0x80 := by
        rw [UInt8.lt_iff_toNat_lt, byteValue]
        exact small
      simp only [encodeGroups, List.cons_append, List.nil_append, decodeGroups,
        low, if_true, byteValue, List.length_cons, List.length_nil]
  | succ more ih =>
      by_cases small : value < 128
      · have byteValue : (UInt8.ofNat value).toNat = value := by
          simp only [UInt8.toNat_ofNat']
          omega
        have low : UInt8.ofNat value < 0x80 := by
          rw [UInt8.lt_iff_toNat_lt, byteValue]
          exact small
        simp only [encodeGroups, small, if_true, List.cons_append,
          List.nil_append, decodeGroups, low, byteValue, List.length_cons,
          List.length_nil]
      · have byteValue :
            (UInt8.ofNat (value % 128 + 128)).toNat = value % 128 + 128 := by
          simp only [UInt8.toNat_ofNat']
          omega
        have high : ¬ UInt8.ofNat (value % 128 + 128) < 0x80 := by
          rw [UInt8.lt_iff_toNat_lt, byteValue]
          simp
        have notLast : ¬ index = 4 := by omega
        have quotientFits : value / 128 < 128 ^ (more + 1) := by
          rw [Nat.pow_succ] at fits
          omega
        have recur := ih (value / 128) quotientFits (index + 1) (by omega)
        simp only [encodeGroups, small, if_false, List.cons_append,
          decodeGroups, high, notLast, recur, byteValue, List.length_cons]
        congr 2
        omega

/-- Reading back a written number, whatever follows it, gives the number and
the length of what was written. -/
theorem decode_encode (value : UInt32) (rest : List UInt8) :
    decode (encode value ++ rest) = .ok (value, (encode value).length) := by
  have fits : value.toNat < 128 ^ (4 + 1) := by
    have bound := value.toNat_lt
    omega
  simp only [decode, encode,
    decodeGroups_encodeGroups 4 value.toNat rest fits 0 (by omega)]
  simp

end Uleb128

namespace Reader

def uleb128 : Reader UInt32 :=
  fun bytes position =>
    if position ≤ bytes.size then
      match Uleb128.decode (bytes.window position 5) with
      | .ok (value, size) => .ok (value, position + size)
      | .error fault => .error fault
    else .error (.varintBehindEnd position)

def count : Reader Nat :=
  andThen uleb128 fun value => succeed value.toNat

end Reader
end DexCensus
