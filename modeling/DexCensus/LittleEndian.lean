/-
Numbers in little-endian byte order.

`number` reads any count of bytes, the least significant first, and `bytes`
writes a number in a given count of bytes, dropping what does not fit.
-/

namespace DexCensus

-- Powers of numbers are those of the core library, whatever else is imported.
attribute [local instance (high)] instPowNat

namespace LittleEndian

/-- The number written by a list of bytes, the least significant first. -/
def number : List UInt8 → Nat
  | [] => 0
  | byte :: rest => byte.toNat + 256 * number rest

def bytes : Nat → Nat → List UInt8
  | 0, _ => []
  | width + 1, value => UInt8.ofNat value :: bytes width (value / 256)

@[simp] theorem length_bytes (width value : Nat) :
    (bytes width value).length = width := by
  induction width generalizing value with
  | zero => rfl
  | succ width ih => simp [bytes, ih]

theorem number_lt (digits : List UInt8) :
    number digits < 256 ^ digits.length := by
  induction digits with
  | nil => simp [number]
  | cons byte rest ih =>
      have small := byte.toNat_lt
      simp only [number, List.length_cons, Nat.pow_succ]
      omega

@[simp] theorem number_bytes (width value : Nat) :
    number (bytes width value) = value % 256 ^ width := by
  induction width generalizing value with
  | zero => simp [bytes, number, Nat.mod_one]
  | succ width ih =>
      have byteValue : (UInt8.ofNat value).toNat = value % 256 := by
        simp
      rw [bytes, number, ih, byteValue, Nat.pow_succ, Nat.mul_comm (256 ^ width),
        Nat.mod_mul]

end LittleEndian
end DexCensus
