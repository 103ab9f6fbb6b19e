/-
Segments whose class definitions stand in another order.

What a segment says about a type, a method or an annotation does not depend on
its class definitions, with one exception: whether an annotation type is
inherited is read off the definition of the type.  If no type is defined
twice, that definition is found wherever it stands.
-/

import DexCensus.Definition
import Mathlib.Data.List.Nodup

namespace DexCensus
namespace Dex

namespace Segment

def withClassDefs (segment : Segment) (classDefs : Array ClassDef) : Segment :=
  { segment with classDefs := classDefs }

variable (segment : Segment) (classDefs : Array ClassDef)

private theorem markerAmong_withClassDefs (indices : List Nat) :
    (segment.withClassDefs classDefs).markerAmong indices =
      segment.markerAmong indices := by
  induction indices with
  | nil => rfl
  | cons index rest ih =>
      have sameDescriptor :
          (segment.withClassDefs classDefs).typeDescriptor
            (UInt32.ofNat index) =
          segment.typeDescriptor (UInt32.ofNat index) := rfl
      rw [markerAmong, markerAmong, sameDescriptor, ih]

mutual

theorem resolve_withClassDefs : ∀ value,
    (segment.withClassDefs classDefs).resolve value = segment.resolve value
  | .byte _ | .short _ | .char _ | .int _ | .long _ | .float _ | .double _
  | .bool _ | .null | .methodType _ | .methodHandle _ | .field _
  | .method _ | .string _ | .type _ | .enum _ => by
      unfold resolve
      rfl
  | .array values => by
      rw [resolve, resolve, resolveList_withClassDefs values]
  | .nested type elements => by
      rw [resolve, resolve, resolveElements_withClassDefs elements]
      rfl

theorem resolveList_withClassDefs : ∀ values,
    (segment.withClassDefs classDefs).resolveList values =
      segment.resolveList values
  | [] => by
      unfold resolveList
      rfl
  | value :: rest => by
      rw [resolveList, resolveList, resolve_withClassDefs value,
        resolveList_withClassDefs rest]

theorem resolveElements_withClassDefs : ∀ elements,
    (segment.withClassDefs classDefs).resolveElements elements =
      segment.resolveElements elements
  | [] => by
      unfold resolveElements
      rfl
  | (nameIndex, value) :: rest => by
      rw [resolveElements, resolveElements, resolve_withClassDefs value,
        resolveElements_withClassDefs rest]
      rfl

end

structure Reordered (left right : Segment) : Prop where
  rest : right = left.withClassDefs right.classDefs
  permuted : left.classDefs.toList.Perm right.classDefs.toList

def DistinctTypes (segment : Segment) : Prop :=
  (segment.classDefs.toList.map ClassDef.classType).Nodup

variable {segment classDefs} {left right : Segment}

private theorem Reordered.symm (reordered : Reordered left right) :
    Reordered right left := by
  constructor
  case rest =>
    rw [reordered.rest]
    rfl
  case permuted => exact reordered.permuted.symm

private theorem Reordered.trans {middle : Segment}
    (first : Reordered left middle)
    (second : Reordered middle right) : Reordered left right := by
  constructor
  case rest =>
    have rest := second.rest
    rw [first.rest] at rest
    exact rest
  case permuted => exact first.permuted.trans second.permuted

theorem Reordered.distinctTypes (reordered : Reordered left right)
    (distinct : left.DistinctTypes) : right.DistinctTypes :=
  ((reordered.permuted.map ClassDef.classType).nodup_iff).mp distinct

theorem Reordered.same {α : Type} (reordered : Reordered left right)
    (lookup : Segment → α)
    (ignores : ∀ segment classDefs,
      lookup (withClassDefs segment classDefs) = lookup segment) :
    lookup right = lookup left := by
  rw [reordered.rest, ignores]

private theorem lastDefinition_eq_some_iff {definitions : List ClassDef}
    (distinct : (definitions.map ClassDef.classType).Nodup) (type : UInt32)
    (classDef : ClassDef) :
    lastDefinition definitions type = some classDef ↔
      classDef ∈ definitions ∧ classDef.classType = type := by
  have inside {other : ClassDef}
      (found : lastDefinition definitions type = some other) :
      other ∈ definitions ∧ other.classType = type := by
    unfold lastDefinition at found
    have chosen := List.find?_some found
    exact ⟨List.mem_reverse.mp (List.mem_of_find?_eq_some found),
      beq_iff_eq.mp chosen⟩
  constructor
  · exact inside
  · intro ⟨member, same⟩
    cases found : lastDefinition definitions type with
    | none =>
        have absent := List.find?_eq_none.mp found classDef
          (List.mem_reverse.mpr member)
        exact (absent (beq_iff_eq.mpr same)).elim
    | some other =>
        obtain ⟨otherMember, otherSame⟩ := inside found
        rw [List.inj_on_of_nodup_map distinct otherMember member
          (otherSame.trans same.symm)]

private theorem Reordered.definitionOf? (reordered : Reordered left right)
    (distinct : left.DistinctTypes) (type : UInt32) :
    right.definitionOf? type = left.definitionOf? type := by
  apply Option.ext
  intro classDef
  rw [Segment.definitionOf?, Segment.definitionOf?,
    lastDefinition_eq_some_iff distinct,
    lastDefinition_eq_some_iff (reordered.distinctTypes distinct),
    reordered.permuted.mem_iff]

end Segment

/-! ### Annotations -/

namespace IndexedSegment

structure Alike (left right : IndexedSegment) : Prop where
  reordered : left.toSegment.Reordered right.toSegment
  distinct : left.toSegment.DistinctTypes

variable {left right : IndexedSegment}

theorem Alike.symm (alike : Alike left right) : Alike right left :=
  { reordered := alike.reordered.symm
    distinct := alike.reordered.distinctTypes alike.distinct }

theorem Alike.trans {middle : IndexedSegment} (first : Alike left middle)
    (second : Alike middle right) : Alike left right :=
  { reordered := first.reordered.trans second.reordered
    distinct := first.distinct }

private theorem Alike.carries (alike : Alike left right) (classDef : ClassDef)
    (type : UInt32) :
    right.carries classDef type = left.carries classDef type := by
  have sameDirectory := alike.reordered.same Segment.directory?
    fun _ _ => rfl
  have sameData := alike.reordered.same Segment.data fun _ _ => rfl
  unfold IndexedSegment.carries
  rw [sameDirectory, sameData]

private theorem Alike.isInherited (alike : Alike left right) (type : UInt32) :
    right.isInherited type = left.isInherited type := by
  have sameMarker := alike.reordered.same Segment.inheritedMarker
    fun segment classDefs => segment.markerAmong_withClassDefs classDefs _
  have sameDefinition := alike.reordered.definitionOf? alike.distinct type
  unfold IndexedSegment.isInherited
  rw [right.marker_get, left.marker_get, right.definitions_get,
    left.definitions_get, sameMarker, sameDefinition]
  simp only [alike.carries]

theorem Alike.annotationsAt (alike : Alike left right) (offset : UInt32) :
    right.annotationsAt offset = left.annotationsAt offset := by
  have sameData := alike.reordered.same Segment.data fun _ _ => rfl
  have sameName := alike.reordered.same Segment.className fun _ _ => rfl
  have sameElements := alike.reordered.same Segment.resolveElements
    fun segment classDefs =>
      funext (segment.resolveElements_withClassDefs classDefs)
  have sameItem (item : Item) :
      right.resolveItem item = left.resolveItem item := by
    unfold IndexedSegment.resolveItem
    rw [sameName, sameElements, alike.isInherited]
  unfold IndexedSegment.annotationsAt
  rw [sameData, funext sameItem]

theorem Alike.classAnnotations (alike : Alike left right)
    (directory : Option Directory) :
    right.classAnnotations directory = left.classAnnotations directory := by
  cases directory with
  | none => rfl
  | some directory => exact alike.annotationsAt directory.classOffset

theorem Alike.methodAnnotations (alike : Alike left right) (method : UInt32)
    (directory : Option Directory) :
    right.methodAnnotations method directory =
      left.methodAnnotations method directory := by
  cases directory with
  | none => rfl
  | some directory =>
      simp only [IndexedSegment.methodAnnotations, alike.annotationsAt]

end IndexedSegment
end Dex
end DexCensus
