/-
What a variable-length number is.

A run is a byte list whose last byte alone has its high bit clear.  A number
is read from a position exactly if a run of at most five bytes stands there
and the number is what its groups of seven bits carry, modulo 2 ^ 32.  The run
need not be the shortest one.
-/

import DexCensus.Proofs.Reader.Exact
import DexCensus.Uleb128

namespace DexCensus

namespace Uleb128

/-- What the low seven bits of some bytes carry, the least significant group
first. -/
def groupsNumber : List UInt8 → Nat
  | [] => 0
  | byte :: rest => byte.toNat % 128 + 128 * groupsNumber rest

/-- Bytes that all continue but for the last one. -/
inductive Run : List UInt8 → Prop
  | last {byte : UInt8} : byte.toNat < 128 → Run [byte]
  | more {byte : UInt8} {rest : List UInt8} :
      128 ≤ byte.toNat → Run rest → Run (byte :: rest)

/-- Any of the byte lists that write a number. -/
structure Written (value : UInt32) (written : List UInt8) : Prop where
  run : Run written
  short : written.length ≤ 5
  carried : value.toNat = groupsNumber written % UInt32.size

theorem lt_high_iff (byte : UInt8) : byte < 0x80 ↔ byte.toNat < 128 := by
  rw [UInt8.lt_iff_toNat_lt]
  exact Iff.rfl

theorem Run.length_pos {run : List UInt8} (isRun : Run run) :
    0 < run.length := by
  cases isRun <;> simp

private theorem exists_run_cons_iff {byte : UInt8} {rest : List UInt8}
    {Holds : List UInt8 → Prop} :
    (∃ run, run <+: byte :: rest ∧ Run run ∧ Holds run) ↔
      byte.toNat < 128 ∧ Holds [byte] ∨
      128 ≤ byte.toNat ∧
        ∃ others, others <+: rest ∧ Run others ∧ Holds (byte :: others) := by
  constructor
  · intro found
    rcases found with ⟨run, stands, isRun, holds⟩
    cases isRun with
    | last small =>
        obtain ⟨same, _⟩ := List.cons_prefix_cons.mp stands
        subst same
        exact Or.inl ⟨small, holds⟩
    | more high othersRun =>
        obtain ⟨same, othersStand⟩ := List.cons_prefix_cons.mp stands
        subst same
        exact Or.inr ⟨high, _, othersStand, othersRun, holds⟩
  · intro found
    rcases found with
      ⟨small, holds⟩ | ⟨high, others, stands, othersRun, holds⟩
    · exact ⟨[byte], List.prefix_append [byte] rest, Run.last small, holds⟩
    · exact ⟨byte :: others, List.cons_prefix_cons.mpr ⟨rfl, stands⟩,
        Run.more high othersRun, holds⟩

/-- The groups after the first `index` ones are decoded exactly if a run
follows that ends within the fifth byte of the whole number. -/
theorem decodeGroups_eq_ok_iff {index : Nat} (room : index ≤ 4)
    (encoded : List UInt8) (value size : Nat) :
    decodeGroups index encoded = .ok (value, size) ↔
      ∃ run, run <+: encoded ∧ Run run ∧ index + run.length ≤ 5 ∧
        size = run.length ∧ value = groupsNumber run := by
  induction encoded generalizing index value size with
  | nil =>
      constructor
      · intro decoded
        cases decoded
      · intro found
        rcases found with ⟨run, stands, isRun, _⟩
        rw [List.prefix_nil.mp stands] at isRun
        cases isRun
  | cons byte rest ih =>
      rw [exists_run_cons_iff]
      by_cases small : byte.toNat < 128
      · have low := (lt_high_iff byte).mpr small
        have only : groupsNumber [byte] = byte.toNat := by
          simp only [groupsNumber, Nat.mul_zero, Nat.add_zero]
          exact Nat.mod_eq_of_lt small
        simp only [decodeGroups, low, if_true, only, small, true_and,
          Nat.not_le.mpr small, false_and, or_false, List.length_singleton]
        constructor
        · intro decoded
          cases decoded
          exact ⟨by omega, rfl, rfl⟩
        · intro found
          rcases found with ⟨_, counted, carried⟩
          rw [counted, carried]
      · have low := mt (lt_high_iff byte).mp small
        have high := Nat.not_lt.mp small
        simp only [decodeGroups, low, if_false, small, false_and, false_or,
          high, true_and, List.length_cons]
        by_cases fifth : index = 4
        · simp only [fifth, if_true]
          constructor
          · intro decoded
            cases decoded
          · intro found
            rcases found with ⟨others, _, othersRun, within, _⟩
            have nonempty := othersRun.length_pos
            omega
        · simp only [fifth, if_false]
          have roomAfter : index + 1 ≤ 4 := by omega
          constructor
          · intro decoded
            cases recur : decodeGroups (index + 1) rest with
            | error fault =>
                rw [recur] at decoded
                cases decoded
            | ok result =>
                rcases result with ⟨later, laterSize⟩
                rw [recur] at decoded
                cases decoded
                obtain ⟨others, stands, othersRun, within, counted, carried⟩ :=
                  (ih roomAfter later laterSize).mp recur
                refine ⟨others, stands, othersRun, by omega, ?_, ?_⟩
                · rw [counted]
                · rw [carried, groupsNumber]
          · intro found
            rcases found with
              ⟨others, stands, othersRun, within, counted, carried⟩
            have recur := (ih roomAfter (groupsNumber others)
              others.length).mpr ⟨others, stands, othersRun, by omega, rfl, rfl⟩
            rw [recur, carried, counted, groupsNumber]

/-- A number is decoded from the front of a byte list exactly if one of the
byte lists that write it stands there. -/
theorem decode_eq_ok_iff (encoded : List UInt8) (value : UInt32)
    (size : Nat) :
    decode encoded = .ok (value, size) ↔
      ∃ written, written <+: encoded ∧ size = written.length ∧
        Written value written := by
  unfold decode
  constructor
  · intro decoded
    cases groups : decodeGroups 0 encoded with
    | error fault =>
        rw [groups] at decoded
        cases decoded
    | ok result =>
        rcases result with ⟨carried, length⟩
        rw [groups] at decoded
        cases decoded
        obtain ⟨run, stands, isRun, within, counted, same⟩ :=
          (decodeGroups_eq_ok_iff (Nat.zero_le 4) encoded carried size).mp
            groups
        refine ⟨run, stands, counted, isRun, by omega, ?_⟩
        rw [same, UInt32.toNat_ofNat']
  · intro found
    rcases found with ⟨run, stands, counted, isRun, short, carried⟩
    have groups := (decodeGroups_eq_ok_iff (Nat.zero_le 4) encoded
      (groupsNumber run) run.length).mpr
        ⟨run, stands, isRun, by omega, rfl, rfl⟩
    have same : UInt32.ofNat (groupsNumber run) = value := by
      apply UInt32.toNat_inj.mp
      rw [UInt32.toNat_ofNat', carried]
    rw [groups]
    simp only [same, counted]

end Uleb128

namespace Reader

open Grammar

variable {bytes : Bytes} {start : Nat}

theorem exact_uleb128 : Exact bytes start uleb128 Uleb128.Written := by
  intro position behind found next
  unfold uleb128
  rw [Bytes.window_eq]
  constructor
  · intro read
    split at read
    · rename_i inside
      cases decoded :
          Uleb128.decode ((bytes.toList.drop position).take 5) with
      | error fault =>
          rw [decoded] at read
          cases read
      | ok result =>
          rcases result with ⟨value, length⟩
          rw [decoded] at read
          cases read
          obtain ⟨written, stands, counted, meant⟩ :=
            (Uleb128.decode_eq_ok_iff _ found length).mp decoded
          exact ⟨written, stands.trans (List.take_prefix 5 _),
            by rw [counted], meant⟩
    · cases read
  · intro ⟨written, stands, ends, meant⟩
    have inside := prefix_drop_inside stands (by cases meant.run <;> simp)
    have inWindow : written <+: (bytes.toList.drop position).take 5 :=
      List.prefix_take_iff.mpr ⟨stands, meant.short⟩
    have decoded := (Uleb128.decode_eq_ok_iff _ found written.length).mpr
      ⟨written, inWindow, rfl, meant⟩
    rw [if_pos (by omega), decoded, ends]

theorem exact_count :
    Exact bytes start count
      (fun found written => ∃ value : UInt32, found = value.toNat ∧
        Uleb128.Written value written) :=
  exact_uleb128.convert UInt32.toNat id id (fun _ => rfl) (fun _ _ _ => rfl)

end Reader
end DexCensus
