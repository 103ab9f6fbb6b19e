/-
Class data are read back from their differences.

The class data of a class are written as numbers: four counts, then for every
entry of the four lists the difference of its index to the one before in the
same list, and its other numbers.  Whatever the spelling of each number, just
these bytes are read as the class data, and the reading ends behind them.
-/

import DexCensus.Proofs.Container
import DexCensus.Proofs.EncodedValue.Canonical

namespace DexCensus

namespace Dex

open Grammar

def MemberField.numbers (entry : MemberField) : List UInt32 :=
  [entry.field, entry.accessFlags]

def MemberMethod.numbers (entry : MemberMethod) : List UInt32 :=
  [entry.method, entry.accessFlags, entry.codeOffset]

/-- The numbers of some fields, with the difference to the one before in the
place of each index. -/
def fieldNumbers (entries : List MemberField) : List UInt32 :=
  (relativeFields 0 entries).flatMap MemberField.numbers

def methodNumbers (entries : List MemberMethod) : List UInt32 :=
  (relativeMethods 0 entries).flatMap MemberMethod.numbers

namespace ClassData

structure CountsFit (members : ClassData) : Prop where
  staticFields : members.staticFields.length < UInt32.size
  instanceFields : members.instanceFields.length < UInt32.size
  directMethods : members.directMethods.length < UInt32.size
  virtualMethods : members.virtualMethods.length < UInt32.size

def counts (members : ClassData) : List UInt32 :=
  [UInt32.ofNat members.staticFields.length,
    UInt32.ofNat members.instanceFields.length,
    UInt32.ofNat members.directMethods.length,
    UInt32.ofNat members.virtualMethods.length]

/-- The numbers of the four lists, one list after another. -/
def entryNumbers (members : ClassData) : List UInt32 :=
  fieldNumbers members.staticFields
    ++ (fieldNumbers members.instanceFields
      ++ (methodNumbers members.directMethods
        ++ methodNumbers members.virtualMethods))

def numbers (members : ClassData) : List UInt32 :=
  members.counts ++ members.entryNumbers

end ClassData

@[simp] theorem length_relativeFields (index : UInt32)
    (entries : List MemberField) :
    (relativeFields index entries).length = entries.length := by
  induction entries generalizing index with
  | nil => rfl
  | cons entry rest ih =>
      rw [relativeFields, List.length_cons, ih, List.length_cons]

@[simp] theorem length_relativeMethods (index : UInt32)
    (entries : List MemberMethod) :
    (relativeMethods index entries).length = entries.length := by
  induction entries generalizing index with
  | nil => rfl
  | cons entry rest ih =>
      rw [relativeMethods, List.length_cons, ih, List.length_cons]

private theorem relativeFields_absoluteFields (index : UInt32)
    (entries : List MemberField) :
    relativeFields index (absoluteFields index entries) = entries := by
  induction entries generalizing index with
  | nil => rfl
  | cons entry rest ih =>
      have difference : index + entry.field - index = entry.field := by
        rw [UInt32.add_comm, UInt32.add_sub_cancel]
      simp only [absoluteFields, relativeFields, difference, ih]

private theorem relativeMethods_absoluteMethods (index : UInt32)
    (entries : List MemberMethod) :
    relativeMethods index (absoluteMethods index entries) = entries := by
  induction entries generalizing index with
  | nil => rfl
  | cons entry rest ih =>
      have difference : index + entry.method - index = entry.method := by
        rw [UInt32.add_comm, UInt32.add_sub_cancel]
      simp only [absoluteMethods, relativeMethods, difference, ih]

end Dex

namespace Reader

open Dex Grammar

variable {bytes : Bytes} {start : Nat}

theorem exact_relativeField :
    Exact bytes start relativeField
      (fun found written =>
        Sequence Uleb128.Written found.numbers written) := by
  refine (exact_uleb128.andThen fun difference =>
    exact_uleb128.andThen fun accessFlags =>
      exact_succeed (MemberField.mk difference accessFlags)).congr ?_
  intro found written
  constructor
  · intro ⟨difference, first, _, split, isDifference, accessFlags, second, _,
      splitAgain, isFlags, same, nothing⟩
    subst same nothing splitAgain split
    exact Sequence.cons isDifference (Sequence.cons isFlags Sequence.nil)
  · intro sequence
    obtain ⟨first, _, split, isDifference, others⟩ :=
      (sequence_cons_iff _ _ _).mp sequence
    obtain ⟨second, rest, splitAgain, isFlags, nothing⟩ :=
      (sequence_cons_iff _ _ _).mp others
    exact ⟨_, first, _, split, isDifference, _, second, rest, splitAgain,
      isFlags, rfl, (sequence_nil_iff rest).mp nothing⟩

theorem exact_relativeMethod :
    Exact bytes start relativeMethod
      (fun found written =>
        Sequence Uleb128.Written found.numbers written) := by
  refine (exact_uleb128.andThen fun difference =>
    exact_uleb128.andThen fun accessFlags =>
      exact_uleb128.andThen fun codeOffset =>
        exact_succeed
          (MemberMethod.mk difference accessFlags codeOffset)).congr ?_
  intro found written
  constructor
  · intro ⟨difference, first, _, split, isDifference, accessFlags, second, _,
      splitAgain, isFlags, codeOffset, third, _, splitLast, isOffset, same,
      nothing⟩
    subst same nothing splitLast splitAgain split
    exact Sequence.cons isDifference
      (Sequence.cons isFlags (Sequence.cons isOffset Sequence.nil))
  · intro sequence
    obtain ⟨first, _, split, isDifference, others⟩ :=
      (sequence_cons_iff _ _ _).mp sequence
    obtain ⟨second, _, splitAgain, isFlags, last⟩ :=
      (sequence_cons_iff _ _ _).mp others
    obtain ⟨third, rest, splitLast, isOffset, nothing⟩ :=
      (sequence_cons_iff _ _ _).mp last
    exact ⟨_, first, _, split, isDifference, _, second, _, splitAgain,
      isFlags, _, third, rest, splitLast, isOffset, rfl,
      (sequence_nil_iff rest).mp nothing⟩

theorem exact_absolute {α : Type} {relative : Reader α}
    {numbers : α → List UInt32}
    (exact : Exact bytes start relative
      (fun found written => Sequence Uleb128.Written (numbers found) written))
    (toAbsolute toRelative : List α → List α)
    (absoluteRelative : ∀ entries, toAbsolute (toRelative entries) = entries)
    (relativeAbsolute : ∀ entries, toRelative (toAbsolute entries) = entries)
    (sameLength : ∀ entries, (toRelative entries).length = entries.length)
    (size : Nat) :
    Exact bytes start
      (andThen (replicate relative size) fun entries =>
        succeed (toAbsolute entries))
      (fun found written => found.length = size ∧
        Sequence Uleb128.Written ((toRelative found).flatMap numbers)
          written) := by
  refine ((exact.replicate size).convert id toAbsolute toRelative
    absoluteRelative (fun entries _ _ => relativeAbsolute entries)).congr ?_
  intro found written
  constructor
  · intro ⟨entries, same, counted, sequence⟩
    cases same
    exact ⟨(sameLength _).symm.trans counted,
      (sequence_flatMap_iff numbers _ written).mp sequence⟩
  · intro ⟨counted, sequence⟩
    exact ⟨found, rfl, (sameLength found).trans counted,
      (sequence_flatMap_iff numbers _ written).mpr sequence⟩

theorem exact_memberFields (size : Nat) :
    Exact bytes start (memberFields size)
      (fun found written => found.length = size ∧
        Sequence Uleb128.Written (fieldNumbers found) written) :=
  exact_absolute exact_relativeField (absoluteFields 0) (relativeFields 0)
    (absoluteFields_relativeFields 0) (relativeFields_absoluteFields 0)
    (length_relativeFields 0) size

theorem exact_memberMethods (size : Nat) :
    Exact bytes start (memberMethods size)
      (fun found written => found.length = size ∧
        Sequence Uleb128.Written (methodNumbers found) written) :=
  exact_absolute exact_relativeMethod (absoluteMethods 0) (relativeMethods 0)
    (absoluteMethods_relativeMethods 0) (relativeMethods_absoluteMethods 0)
    (length_relativeMethods 0) size

/-! ### Class data -/

theorem exact_memberLists
    (staticSize instanceSize directSize virtualSize : Nat) :
    Exact bytes start
      (andThen (memberFields staticSize) fun staticFields =>
        andThen (memberFields instanceSize) fun instanceFields =>
          andThen (memberMethods directSize) fun directMethods =>
            andThen (memberMethods virtualSize) fun virtualMethods =>
              succeed (ClassData.mk staticFields instanceFields directMethods
                virtualMethods))
      (fun found written =>
        found.staticFields.length = staticSize ∧
        found.instanceFields.length = instanceSize ∧
        found.directMethods.length = directSize ∧
        found.virtualMethods.length = virtualSize ∧
        Sequence Uleb128.Written found.entryNumbers written) := by
  refine ((exact_memberFields staticSize).andThen fun staticFields =>
    (exact_memberFields instanceSize).andThen fun instanceFields =>
      (exact_memberMethods directSize).andThen fun directMethods =>
        (exact_memberMethods virtualSize).andThen fun virtualMethods =>
          exact_succeed (ClassData.mk staticFields instanceFields directMethods
            virtualMethods)).congr ?_
  intro found written
  simp only [ClassData.entryNumbers, sequence_append_iff]
  constructor
  · intro ⟨_, first, _, split, ⟨staticCounted, statics⟩,
      _, second, _, splitAgain, ⟨instanceCounted, instances⟩,
      _, third, _, splitThird, ⟨directCounted, directs⟩,
      _, fourth, _, splitFourth, ⟨virtualCounted, virtuals⟩, same, nothing⟩
    subst same nothing
    rw [List.append_nil] at splitFourth
    subst splitFourth
    exact ⟨staticCounted, instanceCounted, directCounted, virtualCounted,
      first, _, split, statics, second, _, splitAgain, instances, third, _,
      splitThird, directs, virtuals⟩
  · intro ⟨staticCounted, instanceCounted, directCounted, virtualCounted,
      first, _, split, statics, second, _, splitAgain, instances, third,
      fourth, splitThird, directs, virtuals⟩
    exact ⟨_, first, _, split, ⟨staticCounted, statics⟩,
      _, second, _, splitAgain, ⟨instanceCounted, instances⟩,
      _, third, _, splitThird, ⟨directCounted, directs⟩,
      _, fourth, [], (List.append_nil fourth).symm,
      ⟨virtualCounted, virtuals⟩, rfl, rfl⟩

theorem exact_countOf :
    Exact bytes start count
      (fun found written => found < UInt32.size ∧
        Uleb128.Written (UInt32.ofNat found) written) := by
  refine exact_count.congr ?_
  intro found written
  constructor
  · intro ⟨value, same, meant⟩
    rw [same, UInt32.ofNat_toNat]
    exact ⟨value.toNat_lt, meant⟩
  · intro ⟨fits, meant⟩
    exact ⟨_, (UInt32.toNat_ofNat_of_lt' fits).symm, meant⟩

theorem exact_classData :
    Exact bytes start classData
      (fun found written => found.CountsFit ∧
        Sequence Uleb128.Written found.numbers written) := by
  refine (exact_countOf.andThen fun staticSize =>
    exact_countOf.andThen fun instanceSize =>
      exact_countOf.andThen fun directSize =>
        exact_countOf.andThen fun virtualSize =>
          exact_memberLists staticSize instanceSize directSize
            virtualSize).congr ?_
  intro found written
  simp only [ClassData.numbers, ClassData.counts, List.cons_append,
    List.nil_append, sequence_cons_iff]
  constructor
  · intro ⟨_, first, _, split, ⟨staticFits, statics⟩,
      _, second, _, splitAgain, ⟨instanceFits, instances⟩,
      _, third, _, splitThird, ⟨directFits, directs⟩,
      _, fourth, rest, splitFourth, ⟨virtualFits, virtuals⟩,
      staticCounted, instanceCounted, directCounted, virtualCounted, entries⟩
    subst staticCounted instanceCounted directCounted virtualCounted
    exact ⟨⟨staticFits, instanceFits, directFits, virtualFits⟩,
      first, _, split, statics, second, _, splitAgain, instances, third, _,
      splitThird, directs, fourth, rest, splitFourth, virtuals, entries⟩
  · intro ⟨fits, first, _, split, statics, second, _, splitAgain, instances,
      third, _, splitThird, directs, fourth, rest, splitFourth, virtuals,
      entries⟩
    exact ⟨_, first, _, split, ⟨fits.staticFields, statics⟩,
      _, second, _, splitAgain, ⟨fits.instanceFields, instances⟩,
      _, third, _, splitThird, ⟨fits.directMethods, directs⟩,
      _, fourth, rest, splitFourth, ⟨fits.virtualMethods, virtuals⟩,
      rfl, rfl, rfl, rfl, entries⟩

/-- Class data are read back from any spelling of their numbers, wherever the
bytes stand and whatever follows them, and nothing else is read as class data.
The virtual methods of a class definition are those of the fourth list. -/
theorem classData_round_trip :
    (∀ (members : ClassData) (before written after : List UInt8),
      members.CountsFit →
      Sequence Uleb128.Written members.numbers written →
        classData (before ++ written ++ after).toArray before.length =
          .ok (members, before.length + written.length)) ∧
    (∀ bytes start members last,
      classData bytes start = .ok (members, last) →
        members.CountsFit ∧ ∃ written, written <+: bytes.toList.drop start ∧
          last = start + written.length ∧
          Sequence Uleb128.Written members.numbers written) ∧
    ∀ (segment : Segment) (definition : ClassDef) (members : ClassData)
      (written : List UInt8),
      definition.classDataOffset ≠ 0 →
      written <+: segment.data.toList.drop definition.classDataOffset.toNat →
      members.CountsFit →
      Sequence Uleb128.Written members.numbers written →
        segment.virtualMethodIndices definition =
          .ok (members.virtualMethods.map MemberMethod.method) := by
  refine ⟨?_, ?_, ?_⟩
  · intro members before written after fits sequence
    refine (exact_classData before.length (Nat.le_refl _) members _).mpr
      ⟨written, ?_, rfl, fits, sequence⟩
    rw [List.append_assoc, List.drop_left]
    exact List.prefix_append written after
  · intro bytes start members last read
    obtain ⟨written, stands, ends, fits, sequence⟩ :=
      (exact_classData start (Nat.le_refl _) members last).mp read
    exact ⟨fits, written, stands, ends, sequence⟩
  · intro segment definition members written present stands fits sequence
    have read := (exact_classData definition.classDataOffset.toNat
      (Nat.le_refl _) members _).mpr ⟨written, stands, rfl, fits, sequence⟩
    have found : segment.classData definition = .ok members := by
      rw [Segment.classData, if_neg present]
      exact valueAt_eq_ok_iff.mpr ⟨_, read⟩
    exact bind_eq_ok_iff.mpr ⟨members, found, rfl⟩

/-! ### Indices that descend -/

/-- Two instance fields, the second one before the first one, and a virtual
method. -/
def descendingMembers : ClassData :=
  { staticFields := []
    instanceFields := [⟨7, 1⟩, ⟨3, 0⟩]
    directMethods := []
    virtualMethods := [⟨5, 1, 0x12345⟩] }

def descendingBytes : List UInt8 :=
  [0x80, 0x00, 2, 0, 1, 7, 1, 0xfc, 0xff, 0xff, 0xff, 0x0f, 0, 5, 1,
    0xc5, 0xc6, 0x04]

private theorem countsFit_descendingMembers : descendingMembers.CountsFit := by
  constructor <;> decide

private theorem written_descendingBytes :
    Sequence Uleb128.Written descendingMembers.numbers descendingBytes := by
  have padded : Uleb128.Written 0 [0x80, 0x00] :=
    { run := .more (by decide) (.last (by decide))
      short := by decide
      carried := by decide }
  have others := sequence_flatMap
    (fun value (_ : value ∈ descendingMembers.numbers.tail) =>
      Uleb128.written_encode value)
  exact Sequence.cons padded others

/-- The class data are read in the middle of a buffer, by the bytes that write
them, and the virtual methods are found from a class definition. -/
theorem descendingMembers_read_back :
    classData ([0x07] ++ descendingBytes ++ [0x09]).toArray 1 =
      .ok (descendingMembers, 1 + 18) ∧
    (∃ written, written <+: descendingBytes ++ [0x09] ∧
      1 + 18 = 1 + written.length ∧
      Sequence Uleb128.Written descendingMembers.numbers written) ∧
    { segmentAt #[] 35 with
      data := (0x07 :: descendingBytes).toArray }.virtualMethodIndices
        { classDefAt #[] 0 with classDataOffset := 1 } = .ok [5] := by
  have read := classData_round_trip.1 descendingMembers [0x07] descendingBytes
    [0x09] countsFit_descendingMembers written_descendingBytes
  refine ⟨read, (classData_round_trip.2.1 _ _ _ _ read).2, ?_⟩
  exact classData_round_trip.2.2 _ _ descendingMembers descendingBytes
    (by decide) (List.prefix_refl _) countsFit_descendingMembers
    written_descendingBytes

end Reader
end DexCensus
