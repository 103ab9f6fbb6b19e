/-
The bound on the depth of encoded values.

Reading a value is defined with a bound on how many values stand around each
other.  Here it is shown that the bound decides nothing: once it is larger
than the number of bytes left, a larger bound reads the same.  Hence the
reader of values satisfies the equation of the grammar, in which a value is a
header byte and what follows it, with values of any depth inside.
-/

import DexCensus.Dex.EncodedValue
import DexCensus.Reader.Forward

namespace DexCensus
namespace Reader

open Dex

theorem forward_narrow (size width : Nat) : Forward (narrow size width) := by
  unfold narrow
  split
  · exact forward_stop _
  · exact forward_take size

theorem forward_signed (size width : Nat) : Forward (signed size width) :=
  forward_andThen (forward_narrow size width) fun _ => forward_succeed _

theorem forward_unsigned (size width : Nat) : Forward (unsigned size width) :=
  forward_andThen (forward_narrow size width) fun _ => forward_succeed _

theorem forward_pattern (size width : Nat) : Forward (pattern size width) :=
  forward_andThen (forward_narrow size width) fun _ => forward_succeed _

theorem forward_index (size : Nat) : Forward (index size) :=
  forward_andThen (forward_unsigned size 4) fun _ => forward_succeed _

theorem forward_arrayOf {value : Reader EncodedValue}
    (forward : Forward value) : Forward (arrayOf value) :=
  forward_andThen forward_count fun size => forward_replicate forward size

theorem forward_elementOf {value : Reader EncodedValue}
    (forward : Forward value) : Forward (elementOf value) :=
  forward_andThen forward_uleb128 fun _ =>
    forward_andThen forward fun _ => forward_succeed _

theorem forward_payloadOf {value : Reader EncodedValue}
    (forward : Forward value) : Forward (payloadOf value) :=
  forward_andThen forward_uleb128 fun _ =>
    forward_andThen forward_count fun size =>
      forward_andThen (forward_replicate (forward_elementOf forward) size)
        fun _ => forward_succeed _

theorem forward_valueBody {value : Reader EncodedValue}
    (forward : Forward value) (start : Nat) (type argument : UInt8) :
    Forward (valueBody value start type argument) := by
  unfold valueBody
  split
  · exact forward_andThen (forward_signed _ _) fun _ => forward_succeed _
  · exact forward_andThen (forward_signed _ _) fun _ => forward_succeed _
  · exact forward_andThen (forward_unsigned _ _) fun _ => forward_succeed _
  · exact forward_andThen (forward_signed _ _) fun _ => forward_succeed _
  · exact forward_andThen (forward_signed _ _) fun _ => forward_succeed _
  · exact forward_andThen (forward_pattern _ _) fun _ => forward_succeed _
  · exact forward_andThen (forward_pattern _ _) fun _ => forward_succeed _
  · exact forward_andThen (forward_index _) fun _ => forward_succeed _
  · exact forward_andThen (forward_index _) fun _ => forward_succeed _
  · exact forward_andThen (forward_index _) fun _ => forward_succeed _
  · exact forward_andThen (forward_index _) fun _ => forward_succeed _
  · exact forward_andThen (forward_index _) fun _ => forward_succeed _
  · exact forward_andThen (forward_index _) fun _ => forward_succeed _
  · exact forward_andThen (forward_index _) fun _ => forward_succeed _
  · exact forward_andThen (forward_arrayOf forward) fun _ => forward_succeed _
  · exact forward_andThen (forward_payloadOf forward) fun _ =>
      forward_succeed _
  · exact forward_succeed _
  · exact forward_succeed _
  · exact forward_stop _

theorem forward_valueStep {value : Reader EncodedValue}
    (forward : Forward value) : Forward (valueStep value) := by
  unfold valueStep
  rw [bind_eq]
  refine forward_andThen forward_position fun start => ?_
  rw [bind_eq]
  refine forward_andThen forward_u1 fun header => ?_
  exact forward_valueBody forward start (header &&& 0x1f) (header >>> 5)

theorem forward_valueWithin (depth : Nat) : Forward (valueWithin depth) := by
  induction depth with
  | zero =>
      intro bytes start found next read
      cases read
  | succ depth ih => exact forward_valueStep ih

variable {bytes : Bytes} {start : Nat} {left right : Reader EncodedValue}

private theorem AgreeFrom.arrayOf (forward : Forward left)
    (agree : AgreeFrom bytes start left right) :
    AgreeFrom bytes start (arrayOf left) (arrayOf right) :=
  AgreeFrom.andThen forward_count (AgreeFrom.refl bytes start _) fun size =>
    AgreeFrom.replicate forward agree size

private theorem AgreeFrom.elementOf (forward : Forward left)
    (agree : AgreeFrom bytes start left right) :
    AgreeFrom bytes start (elementOf left) (elementOf right) :=
  AgreeFrom.andThen forward_uleb128 (AgreeFrom.refl bytes start _) fun _ =>
    AgreeFrom.andThen forward agree fun _ => AgreeFrom.refl bytes start _

private theorem AgreeFrom.payloadOf (forward : Forward left)
    (agree : AgreeFrom bytes start left right) :
    AgreeFrom bytes start (payloadOf left) (payloadOf right) :=
  AgreeFrom.andThen forward_uleb128 (AgreeFrom.refl bytes start _) fun _ =>
    AgreeFrom.andThen forward_count (AgreeFrom.refl bytes start _) fun size =>
      AgreeFrom.andThen (forward_replicate (forward_elementOf forward) size)
        (AgreeFrom.replicate (forward_elementOf forward)
          (AgreeFrom.elementOf forward agree) size)
        fun _ => AgreeFrom.refl bytes start _

private theorem AgreeFrom.valueBody (forward : Forward left)
    (agree : AgreeFrom bytes start left right) (origin : Nat)
    (type argument : UInt8) :
    AgreeFrom bytes start (valueBody left origin type argument)
      (valueBody right origin type argument) := by
  unfold Reader.valueBody
  split
  case h_15 =>
      exact AgreeFrom.andThen (forward_arrayOf forward)
        (AgreeFrom.arrayOf forward agree)
        fun _ => AgreeFrom.refl bytes start _
  case h_16 =>
      exact AgreeFrom.andThen (forward_payloadOf forward)
        (AgreeFrom.payloadOf forward agree)
        fun _ => AgreeFrom.refl bytes start _
  all_goals exact AgreeFrom.refl bytes start _

/-! ### The bound -/

theorem valueStep_congr (forward : Forward left)
    (agree : start < bytes.size → AgreeFrom bytes (start + 1) left right) :
    valueStep left bytes start = valueStep right bytes start := by
  show andThen u1 _ bytes start = andThen u1 _ bytes start
  unfold andThen
  cases read : u1 bytes start with
  | error fault => rfl
  | ok result =>
      rcases result with ⟨header, next⟩
      obtain ⟨number, middle, numberRead, rest⟩ :=
        andThen_eq_ok_iff.mp read
      have ends := fixedNumber_next numberRead
      cases rest
      have size : NumberWidth.one.size = 1 := rfl
      rw [size] at ends
      have inside : start < bytes.size := by omega
      exact AgreeFrom.valueBody forward (agree inside) start
        (UInt8.ofNat number &&& 0x1f) (UInt8.ofNat number >>> 5) next
        (by omega)

private theorem valueWithin_succ {depth : Nat}
    (enough : bytes.size - start < depth) :
    valueWithin (depth + 1) bytes start = valueWithin depth bytes start := by
  induction depth generalizing start with
  | zero => omega
  | succ depth ih =>
      exact valueStep_congr (forward_valueWithin (depth + 1))
        fun inside next behind => ih (by omega)

theorem valueWithin_eq {depth : Nat} (enough : bytes.size - start < depth) :
    valueWithin depth bytes start = encodedValue bytes start := by
  induction depth with
  | zero => omega
  | succ depth ih =>
      by_cases least : depth = bytes.size - start
      · rw [least]
        rfl
      · rw [valueWithin_succ (by omega)]
        exact ih (by omega)

/-- A value is a header byte and what follows it, with values inside. -/
theorem encodedValue_eq : encodedValue = valueStep encodedValue := by
  funext bytes start
  show valueStep (valueWithin (bytes.size - start)) bytes start = _
  exact valueStep_congr (forward_valueWithin (bytes.size - start))
    fun inside next behind => valueWithin_eq (by omega)

end Reader
end DexCensus
