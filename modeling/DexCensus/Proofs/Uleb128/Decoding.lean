/-
What decoding gives for any bytes.

The first byte below 0x80 ends a number.  If it is among the first five, the
number is the sum of the groups up to it, modulo 2 ^ 32; the same comes out
when each group is shifted to its place and or-ed in, within 32 bits.
Otherwise the run is overlong, or the bytes end before it does.
-/

import DexCensus.Proofs.EncodedValue.Canonical
import Mathlib.Algebra.BigOperators.Group.Finset.Basic
import Mathlib.Algebra.BigOperators.Ring.Finset

namespace DexCensus

-- Powers of numbers are those of the core library, whatever else is imported.
attribute [local instance (high)] instPowNat

namespace Uleb128

open Finset (range sum_range_succ sum_range_succ')

/-- The position of the first byte that does not say that another one
follows. -/
def lastByte? (encoded : List UInt8) : Option Nat :=
  encoded.findIdx? fun byte => byte < 0x80

def groupAt (encoded : List UInt8) (index : Nat) : Nat :=
  (encoded.getD index 0).toNat % 128

/-- The first groups of some bytes, each moved to its place. -/
def groupSum (encoded : List UInt8) (count : Nat) : Nat :=
  ∑ index ∈ range count, groupAt encoded index * 2 ^ (7 * index)

/-- The first groups of some bytes, each shifted to its place in a word of 32
bits and or-ed to the ones before it. -/
def assembled : List UInt8 → Nat → UInt32
  | _, 0 => 0
  | encoded, count + 1 =>
      assembled encoded count |||
        ((encoded.getD count 0 &&& 0x7f).toUInt32 <<< UInt32.ofNat (7 * count))

theorem groupsNumber_take (encoded : List UInt8) (count : Nat) :
    groupsNumber (encoded.take count) = groupSum encoded count := by
  unfold groupSum
  induction encoded generalizing count with
  | nil => simp [groupsNumber, groupAt]
  | cons byte rest ih =>
      cases count with
      | zero => simp [groupsNumber]
      | succ count =>
          have shifted (index : Nat) :
              groupAt (byte :: rest) (index + 1) * 2 ^ (7 * (index + 1)) =
                128 * (groupAt rest index * 2 ^ (7 * index)) := by
            rw [Nat.mul_succ, Nat.pow_add, groupAt, List.getD_cons_succ,
              ← groupAt, ← Nat.mul_assoc, Nat.mul_comm 128]
          rw [List.take_succ_cons, groupsNumber, ih, sum_range_succ',
            Finset.mul_sum]
          simp only [shifted]
          simp [groupAt, Nat.add_comm]

private theorem groupSum_lt (encoded : List UInt8) (count : Nat) :
    groupSum encoded count < 2 ^ (7 * count) := by
  have bound := groupsNumber_lt (encoded.take count)
  have base : 128 = 2 ^ 7 := rfl
  rw [groupsNumber_take, base, ← Nat.pow_mul] at bound
  exact Nat.lt_of_lt_of_le bound
    (Nat.pow_le_pow_right (by decide)
      (Nat.mul_le_mul_left 7 (List.length_take_le count encoded)))

private theorem groupSum_succ (encoded : List UInt8) (count : Nat) :
    groupSum encoded (count + 1) =
      groupSum encoded count + groupAt encoded count * 2 ^ (7 * count) :=
  sum_range_succ _ count

/-- What is below a place and what stands from that place on do not overlap,
so or-ing them adds them up.  Bits that do not fit are lost either way. -/
theorem or_place_eq {low group place : Nat} (below : low < 2 ^ place)
    (within : place ≤ 32) :
    low ||| group * 2 ^ place % 2 ^ 32 =
      (low + group * 2 ^ place) % 2 ^ 32 := by
  have whole : 2 ^ 32 = 2 ^ place * 2 ^ (32 - place) := by
    rw [← Nat.pow_add]
    congr 1
    omega
  have kept : group * 2 ^ place % 2 ^ 32 =
      2 ^ place * (group % 2 ^ (32 - place)) := by
    rw [whole, Nat.mul_comm group, Nat.mul_mod_mul_left]
  rw [kept, Nat.or_comm, ← Nat.two_pow_add_eq_or_of_lt below, whole,
    Nat.mod_mul, Nat.mul_comm group, Nat.add_mul_mod_self_left,
    Nat.mod_eq_of_lt below, Nat.add_mul_div_left _ _ (Nat.two_pow_pos place),
    Nat.div_eq_of_lt below, Nat.zero_add, Nat.add_comm]

theorem toNat_assembled (encoded : List UInt8) {count : Nat}
    (few : count ≤ 5) :
    (assembled encoded count).toNat = groupSum encoded count % 2 ^ 32 := by
  induction count with
  | zero => rfl
  | succ count ih =>
      have place : (UInt32.ofNat (7 * count)).toNat = 7 * count := by
        rw [UInt32.toNat_ofNat']
        omega
      have group : (encoded.getD count 0 &&& 0x7f).toUInt32.toNat =
          groupAt encoded count := by
        rw [UInt8.toNat_toUInt32, UInt8.toNat_and]
        exact Nat.and_two_pow_sub_one_eq_mod _ 7
      have below := groupSum_lt encoded count
      have fits : 2 ^ (7 * count) ≤ 2 ^ 32 :=
        Nat.pow_le_pow_right (by decide) (by omega)
      rw [assembled, UInt32.toNat_or, UInt32.toNat_shiftLeft, place, group,
        ih (by omega), Nat.mod_eq_of_lt (by omega), groupSum_succ,
        Nat.mod_eq_of_lt (show 7 * count < 32 by omega), Nat.shiftLeft_eq]
      exact or_place_eq below (by omega)

/-! ### Decoding any bytes -/

theorem lastByte?_cons (byte : UInt8) (rest : List UInt8) :
    lastByte? (byte :: rest) =
      if byte < 0x80 then some 0 else (lastByte? rest).map (· + 1) := by
  rw [lastByte?, List.findIdx?_cons]
  by_cases low : byte < 0x80
  · simp [low]
  · simp [low, lastByte?]

/-- The groups after the first `index` ones: their first byte below 0x80 ends
them, unless the fifth byte of the number comes first. -/
theorem decodeGroups_eq {index : Nat} (room : index ≤ 4)
    (encoded : List UInt8) :
    decodeGroups index encoded =
      match lastByte? encoded with
      | some last =>
          if index + last ≤ 4 then
            .ok (groupsNumber (encoded.take (last + 1)), last + 1)
          else .error .varintOverlong
      | none =>
          if 5 ≤ index + encoded.length then .error .varintOverlong
          else .error (.varintTruncated (index + encoded.length)) := by
  induction encoded generalizing index with
  | nil =>
      simp only [decodeGroups, lastByte?, List.findIdx?_nil, List.length_nil,
        Nat.add_zero]
      rw [if_neg (by omega)]
  | cons byte rest ih =>
      rw [decodeGroups, lastByte?_cons]
      by_cases low : byte < 0x80
      · have small := (lt_high_iff byte).mp low
        simp [low, room, groupsNumber, Nat.mod_eq_of_lt small]
      · simp only [low, if_false]
        by_cases fifth : index = 4
        · -- The fifth byte continues, wherever the run would have ended.
          rw [if_pos fifth]
          cases lastByte? rest with
          | none =>
              simp only [Option.map_none, List.length_cons]
              rw [if_pos (by omega)]
          | some last =>
              simp only [Option.map_some]
              rw [if_neg (by omega)]
        · rw [if_neg fifth, ih (by omega)]
          cases lastByte? rest with
          | none =>
              have sum : index + (rest.length + 1) =
                  index + 1 + rest.length := by omega
              simp only [Option.map_none, List.length_cons, sum]
              by_cases long : 5 ≤ index + 1 + rest.length
              · simp only [if_pos long]
              · simp only [if_neg long]
          | some last =>
              have sum : index + (last + 1) = index + 1 + last := by omega
              simp only [Option.map_some, sum]
              by_cases early : index + 1 + last ≤ 4
              · simp only [if_pos early, List.take_succ_cons, groupsNumber]
              · simp only [if_neg early]

theorem decode_eq (encoded : List UInt8) :
    decode encoded =
      match lastByte? encoded with
      | some last =>
          if last ≤ 4 then
            .ok (UInt32.ofNat (groupSum encoded (last + 1)), last + 1)
          else .error .varintOverlong
      | none =>
          if 5 ≤ encoded.length then .error .varintOverlong
          else .error (.varintTruncated encoded.length) := by
  rw [decode, decodeGroups_eq (Nat.zero_le 4)]
  simp only [Nat.zero_add, groupsNumber_take]
  cases lastByte? encoded with
  | none =>
      by_cases long : 5 ≤ encoded.length
      · simp only [if_pos long]
      · simp only [if_neg long]
  | some last =>
      by_cases early : last ≤ 4
      · simp only [if_pos early]
      · simp only [if_neg early]

private theorem lastByte?_take_append {encoded : List UInt8} {last : Nat}
    (ends : lastByte? encoded = some last) (behind : List UInt8) :
    lastByte? (encoded.take (last + 1) ++ behind) = some last := by
  induction encoded generalizing last with
  | nil => cases ends
  | cons byte rest ih =>
      rw [lastByte?_cons] at ends
      rw [List.take_succ_cons, List.cons_append, lastByte?_cons]
      by_cases low : byte < 0x80
      · rw [if_pos low] at ends ⊢
        exact ends
      · rw [if_neg low] at ends ⊢
        obtain ⟨earlier, endsLater, rfl⟩ := Option.map_eq_some_iff.mp ends
        rw [ih endsLater, Option.map_some]

theorem lastByte?_lt {encoded : List UInt8} {last : Nat}
    (ends : lastByte? encoded = some last) : last < encoded.length := by
  obtain ⟨inside, _⟩ := List.findIdx?_eq_some_iff_getElem.mp ends
  exact inside

private theorem decode_take_append {encoded : List UInt8} {last : Nat}
    (ends : lastByte? encoded = some last) (behind : List UInt8) :
    decode (encoded.take (last + 1) ++ behind) = decode encoded := by
  have sameGroups : groupSum (encoded.take (last + 1) ++ behind) (last + 1) =
      groupSum encoded (last + 1) := by
    have length : (encoded.take (last + 1)).length = last + 1 :=
      List.length_take_of_le (lastByte?_lt ends)
    rw [← groupsNumber_take, ← groupsNumber_take, List.take_left' length]
  rw [decode_eq, decode_eq, lastByte?_take_append ends, ends]
  simp only [sameGroups]

/-- Decoding is exact.  With the first byte below 0x80 among the first five,
it gives the sum of the groups up to that byte modulo 2 ^ 32, which is also
what or-ing them together gives, and how many bytes those are.  Otherwise it
fails: five bytes or more are an overlong run, fewer are an input that ends
too early.  Bytes behind the first one below 0x80 never matter.  A written
number is read back whatever follows it, and no bytes that are read as a
number are fewer than those it is written in. -/
theorem decode_exact :
    (∀ encoded last, lastByte? encoded = some last → last ≤ 4 →
      ∃ value, decode encoded = .ok (value, last + 1) ∧
        value.toNat =
          (∑ index ∈ range (last + 1),
            (encoded.getD index 0).toNat % 128 * 2 ^ (7 * index)) % 2 ^ 32 ∧
        value = assembled encoded (last + 1)) ∧
    (∀ encoded, (∀ last, lastByte? encoded = some last → 4 < last) →
      ∃ fault, decode encoded = .error fault ∧
        fault.kind =
          if 5 ≤ encoded.length then .malformedVarint
          else .malformedContainer) ∧
    (∀ encoded last behind, lastByte? encoded = some last →
      decode (encoded.take (last + 1) ++ behind) = decode encoded) ∧
    (∀ value tail, decode (encode value ++ tail) =
      .ok (value, (encode value).length)) ∧
    ∀ encoded value size, decode encoded = .ok (value, size) →
      (encode value).length ≤ size := by
  refine ⟨?_, ?_, ?_, decode_encode, ?_⟩
  · intro encoded last ends early
    refine ⟨UInt32.ofNat (groupSum encoded (last + 1)), ?_, ?_, ?_⟩
    · rw [decode_eq, ends]
      exact if_pos early
    · exact UInt32.toNat_ofNat'
    · apply UInt32.toNat_inj.mp
      rw [toNat_assembled encoded (by omega), UInt32.toNat_ofNat']
  · intro encoded late
    rw [decode_eq]
    cases ends : lastByte? encoded with
    | none =>
        by_cases long : 5 ≤ encoded.length
        · exact ⟨_, if_pos long, by rw [if_pos long]; rfl⟩
        · exact ⟨_, if_neg long, by rw [if_neg long]; rfl⟩
    | some last =>
        have behindFifth := late last ends
        have inside := lastByte?_lt ends
        refine ⟨_, if_neg (by omega), ?_⟩
        rw [if_pos (by omega)]
        rfl
  · intro encoded last behind ends
    exact decode_take_append ends behind
  · intro encoded value size decoded
    obtain ⟨written, _, counted, meant⟩ :=
      (decode_eq_ok_iff encoded value size).mp decoded
    rw [counted]
    exact length_encode_le meant

/-- A number of five bytes with a byte behind it.  Three bits of the fifth
group do not fit. -/
def wideBytes : List UInt8 :=
  [0xff, 0xff, 0xff, 0xff, 0x7f, 0x33]

/-- The bits that do not fit are dropped, the byte behind does not matter, a
padded number takes more bytes than it is written in, and a run that does not
end is overlong or too short. -/
theorem wideBytes_decoded :
    lastByte? wideBytes = some 4 ∧
    decode wideBytes = .ok (0xffffffff, 5) ∧
    decode (wideBytes.take 5 ++ [0x80]) = .ok (0xffffffff, 5) ∧
    decode [0x80, 0x80, 0x00] = .ok (0, 3) ∧ (encode 0).length ≤ 3 ∧
    (∃ fault, decode [0x80, 0x80, 0x80, 0x80, 0x80, 0x01] = .error fault ∧
      fault.kind = .malformedVarint) ∧
    ∃ fault, decode [0x80, 0x80] = .error fault ∧
      fault.kind = .malformedContainer := by
  obtain ⟨ending, unending, behind, _, shortest⟩ := decode_exact
  have ends : lastByte? wideBytes = some 4 := rfl
  obtain ⟨value, decoded, _, carried⟩ := ending wideBytes 4 ends (by decide)
  have same : value = 0xffffffff := carried.trans (by decide)
  subst same
  refine ⟨ends, decoded, (behind wideBytes 4 [0x80] ends).trans decoded, rfl,
    shortest [0x80, 0x80, 0x00] 0 3 rfl, ?_, ?_⟩
  · apply unending [0x80, 0x80, 0x80, 0x80, 0x80, 0x01]
    intro last ends
    cases ends
    decide
  · apply unending [0x80, 0x80]
    intro last ends
    cases ends

end Uleb128
end DexCensus
