/-
Readers that look at nothing but what they read.

A reader is local if it is exact for some grammar.  What it finds is then
decided by the bytes between its position and its end, so it finds the same in
every longer buffer.  All readers of a segment are local but for that of the
header, which also looks at the length of the buffer.
-/

import DexCensus.Dex.AnnotationSet
import DexCensus.Dex.ClassData
import DexCensus.Dex.Header
import DexCensus.Dex.Segment
import DexCensus.Dex.Table
import DexCensus.Proofs.EncodedValue.Exact
import Mathlib.Data.List.Infix

namespace DexCensus
namespace Reader

open Dex Grammar

variable {α β : Type}

/-- What a reader finds is decided by the bytes it reads. -/
def Local (reader : Reader α) : Prop :=
  ∃ grammar, ∀ bytes, Exact bytes 0 reader grammar

theorem Local.extend {reader : Reader α} (isLocal : Local reader)
    {cut full : Bytes} (longer : cut.toList <+: full.toList)
    {position next : Nat} {value : α}
    (read : reader cut position = .ok (value, next)) :
    reader full position = .ok (value, next) := by
  rcases isLocal with ⟨grammar, exact⟩
  obtain ⟨written, stands, ends, meant⟩ :=
    (exact cut position (Nat.zero_le _) value next).mp read
  exact (exact full position (Nat.zero_le _) value next).mpr
    ⟨written, stands.trans (List.IsPrefix.drop longer position), ends, meant⟩

theorem local_succeed (value : α) : Local (succeed value) :=
  ⟨_, fun _ => exact_succeed value⟩

theorem local_stop (fault : Fault) : Local (stop fault : Reader α) :=
  ⟨_, fun _ => exact_stop fault⟩

theorem local_andThen {first : Reader α} {second : α → Reader β}
    (firstLocal : Local first) (secondLocal : ∀ value, Local (second value)) :
    Local (andThen first second) := by
  rcases firstLocal with ⟨firstGrammar, firstExact⟩
  refine ⟨join firstGrammar fun value => (secondLocal value).choose, ?_⟩
  intro bytes
  exact (firstExact bytes).andThen fun value =>
    (secondLocal value).choose_spec bytes

theorem local_replicate {reader : Reader α} (isLocal : Local reader)
    (count : Nat) : Local (replicate reader count) := by
  rcases isLocal with ⟨grammar, exact⟩
  exact ⟨repeated grammar count, fun bytes => (exact bytes).replicate count⟩

theorem local_take {length : Nat} (positive : 0 < length) :
    Local (take length) :=
  ⟨_, fun _ => exact_take positive⟩

theorem local_u1 : Local u1 :=
  ⟨_, fun _ => exact_u1⟩

theorem local_u2 : Local u2 :=
  ⟨_, fun _ => exact_u2⟩

theorem local_u4 : Local u4 :=
  ⟨_, fun _ => exact_u4⟩

theorem local_uleb128 : Local uleb128 :=
  ⟨_, fun _ => exact_uleb128⟩

theorem local_count : Local count :=
  ⟨_, fun _ => exact_count⟩

theorem local_encodedValue : Local encodedValue :=
  ⟨_, fun bytes => exact_encodedValue bytes 0⟩

theorem untilZeroOnto_eq_ok_iff (bytes : Bytes) (start : Nat)
    (done found : List UInt8) (next : Nat) :
    untilZeroOnto bytes start done = .ok (found, next) ↔
      ∃ text, text ++ [0] <+: bytes.toList.drop start ∧ (0 : UInt8) ∉ text ∧
        next = start + text.length + 1 ∧ found = done.reverse ++ text := by
  induction start, done using untilZeroOnto.induct bytes with
  | case1 start done inside ends =>
      rw [untilZeroOnto, dif_pos inside, if_pos ends]
      have here : bytes.toList.drop start =
          0 :: bytes.toList.drop (start + 1) := by
        rw [List.drop_eq_getElem_cons (by simpa using inside),
          Array.getElem_toList, ends]
      constructor
      · intro read
        cases read
        refine ⟨[], ?_, List.not_mem_nil, rfl, (List.append_nil _).symm⟩
        rw [here]
        exact ⟨bytes.toList.drop (start + 1), rfl⟩
      · intro ⟨text, stands, noZero, last, whole⟩
        rw [here] at stands
        cases text with
        | nil => rw [last, whole, List.append_nil]; rfl
        | cons first rest =>
            have same : first = 0 := (List.cons_prefix_cons.mp stands).1
            rw [same] at noZero
            exact (noZero List.mem_cons_self).elim
  | case2 start done inside goesOn ih =>
      rw [untilZeroOnto, dif_pos inside, if_neg goesOn, ih]
      have here : bytes.toList.drop start =
          bytes[start] :: bytes.toList.drop (start + 1) := by
        rw [List.drop_eq_getElem_cons (by simpa using inside),
          Array.getElem_toList]
      rw [here]
      constructor
      · intro ⟨text, stands, noZero, last, whole⟩
        refine ⟨bytes[start] :: text, ?_, ?_, ?_, ?_⟩
        · exact List.cons_prefix_cons.mpr ⟨rfl, stands⟩
        · intro member
          rcases List.mem_cons.mp member with isFirst | isLater
          · exact goesOn isFirst.symm
          · exact noZero isLater
        · rw [last, List.length_cons]
          omega
        · rw [whole, List.reverse_cons, List.append_assoc,
            List.singleton_append]
      · intro ⟨text, stands, noZero, last, whole⟩
        cases text with
        | nil => exact (goesOn (List.cons_prefix_cons.mp stands).1.symm).elim
        | cons first rest =>
            obtain ⟨same, later⟩ := List.cons_prefix_cons.mp stands
            refine ⟨rest, later, ?_, ?_, ?_⟩
            · intro member
              exact noZero (List.mem_cons_of_mem first member)
            · rw [last, List.length_cons]
              omega
            · rw [whole, same, List.reverse_cons, List.append_assoc,
                List.singleton_append]
  | case3 start done outside =>
      rw [untilZeroOnto, dif_neg outside]
      constructor
      · intro read
        cases read
      · intro ⟨text, stands, noZero, last, whole⟩
        have ends := prefix_drop_inside stands (by simp)
        rw [List.length_append, List.length_singleton] at ends
        omega

theorem exact_untilZero {bytes : Bytes} {start : Nat} :
    Exact bytes start untilZero
      (fun found written => (0 : UInt8) ∉ found ∧ written = found ++ [0]) := by
  intro position behind found next
  rw [untilZero, untilZeroOnto_eq_ok_iff]
  constructor
  · intro ⟨text, stands, noZero, last, whole⟩
    rw [List.reverse_nil, List.nil_append] at whole
    subst whole
    refine ⟨found ++ [0], stands, ?_, noZero, rfl⟩
    rw [last, List.length_append, List.length_singleton, Nat.add_assoc]
  · intro ⟨written, stands, last, noZero, whole⟩
    subst whole
    refine ⟨found, stands, noZero, ?_, rfl⟩
    rw [last, List.length_append, List.length_singleton, Nat.add_assoc]

theorem local_untilZero : Local untilZero :=
  ⟨_, fun _ => exact_untilZero⟩

theorem local_stringBytes : Local Segment.stringBytes :=
  local_andThen local_uleb128 fun _ => local_untilZero

/-! ### Records of tables -/

theorem local_extent : Local extent :=
  local_andThen local_u4 fun _ => local_andThen local_u4 fun _ =>
    local_succeed _

theorem local_prototype : Local prototype :=
  local_andThen local_u4 fun _ => local_andThen local_u4 fun _ =>
    local_andThen local_u4 fun _ => local_succeed _

theorem local_shortIndex : Local shortIndex :=
  local_andThen local_u2 fun _ => local_succeed _

theorem local_field : Local field :=
  local_andThen local_shortIndex fun _ =>
    local_andThen local_shortIndex fun _ =>
      local_andThen local_u4 fun _ => local_succeed _

theorem local_method : Local method :=
  local_andThen local_shortIndex fun _ =>
    local_andThen local_shortIndex fun _ =>
      local_andThen local_u4 fun _ => local_succeed _

theorem local_classDef : Local classDef := by
  iterate 8
    apply local_andThen local_u4
    intro _
  exact local_succeed _

theorem local_memberFields (size : Nat) : Local (memberFields size) := by
  have each : Local relativeField :=
    local_andThen local_uleb128 fun _ => local_andThen local_uleb128 fun _ =>
      local_succeed _
  exact local_andThen (local_replicate each size) fun _ => local_succeed _

theorem local_memberMethods (size : Nat) : Local (memberMethods size) := by
  have each : Local relativeMethod :=
    local_andThen local_uleb128 fun _ => local_andThen local_uleb128 fun _ =>
      local_andThen local_uleb128 fun _ => local_succeed _
  exact local_andThen (local_replicate each size) fun _ => local_succeed _

theorem local_classData : Local classData := by
  iterate 4
    apply local_andThen local_count
    intro _
  apply local_andThen (local_memberFields _)
  intro _
  apply local_andThen (local_memberFields _)
  intro _
  apply local_andThen (local_memberMethods _)
  intro _
  apply local_andThen (local_memberMethods _)
  intro _
  exact local_succeed _

theorem local_encodedArray : Local encodedArray :=
  local_andThen local_count fun size =>
    local_replicate local_encodedValue size

theorem local_element : Local element :=
  local_andThen local_uleb128 fun _ =>
    local_andThen local_encodedValue fun _ => local_succeed _

theorem local_payload : Local payload :=
  local_andThen local_uleb128 fun _ => local_andThen local_count fun size =>
    local_andThen (local_replicate local_element size) fun _ =>
      local_succeed _

theorem local_item : Local item :=
  local_andThen local_u1 fun _ =>
    local_andThen local_payload fun _ => local_succeed _

theorem local_itemOffsets : Local itemOffsets :=
  local_andThen local_u4 fun size => local_replicate local_u4 size.toNat

theorem local_attachment : Local attachment :=
  local_andThen local_u4 fun _ => local_andThen local_u4 fun _ =>
    local_succeed _

theorem local_directory : Local directory := by
  iterate 4
    apply local_andThen local_u4
    intro _
  iterate 3
    apply local_andThen (local_replicate local_attachment _)
    intro _
  exact local_succeed _

theorem local_magic : Local magic := by
  apply local_andThen (local_take (by decide))
  intro found
  cases magicVersion found with
  | error fault => exact local_stop fault
  | ok version => exact local_succeed (found, version)

theorem local_endian : Local endian := by
  apply local_andThen local_u4
  intro tag
  by_cases expected : tag = Dex.endianTag
  · rw [if_pos expected]
    exact local_succeed tag
  · rw [if_neg expected]
    exact local_stop _

private theorem extend_guarded {reader : Reader α} (isLocal : Local reader)
    {least : Nat} {short : Nat → Fault} {cut full : Bytes}
    (longer : cut.toList <+: full.toList) {position next : Nat} {value : α}
    (read : andThen bufferSize (fun available =>
      if available < least then stop (short available) else reader)
        cut position = .ok (value, next)) :
    andThen bufferSize (fun available =>
      if available < least then stop (short available) else reader)
        full position = .ok (value, next) := by
  have sizes : cut.size ≤ full.size := by
    have lengths := longer.length_le
    rwa [Array.length_toList, Array.length_toList] at lengths
  simp only [andThen, bufferSize] at read ⊢
  by_cases tooShort : cut.size < least
  · rw [if_pos tooShort] at read
    cases read
  · rw [if_neg tooShort] at read
    rw [if_neg (by omega)]
    exact isLocal.extend longer read

theorem extend_header {cut full : Bytes} (longer : cut.toList <+: full.toList)
    {position next : Nat} {value : Header}
    (read : header cut position = .ok (value, next)) :
    header full position = .ok (value, next) := by
  refine extend_guarded ?_ longer read
  apply local_andThen local_magic
  intro ⟨_, _⟩
  apply local_andThen local_u4
  intro _
  apply local_andThen (local_take (by decide))
  intro _
  iterate 2
    apply local_andThen local_u4
    intro _
  apply local_andThen local_endian
  intro _
  apply local_andThen local_extent
  intro _
  apply local_andThen local_u4
  intro _
  iterate 7
    apply local_andThen local_extent
    intro _
  exact local_succeed _

end Reader
end DexCensus
