/-
Segments with more bytes behind their buffers.

Whatever can be looked up in a segment can be looked up, with the same result,
in the segment with more bytes behind its buffer.  Lookups that fail may
succeed there, so the statements follow the shorter segment.

The readers are local, so no lookup depends on where the buffer ends; checks
for its length only let more through as it grows.
-/

import DexCensus.Dex.Resolution
import DexCensus.Proofs.Computation
import DexCensus.Proofs.Reader.Local

namespace DexCensus
namespace Dex

def Longer (cut full : Bytes) : Prop :=
  cut.toList <+: full.toList

private theorem Longer.size_le {cut full : Bytes} (longer : Longer cut full) :
    cut.size ≤ full.size := by
  have lengths := List.IsPrefix.length_le longer
  rwa [Array.length_toList, Array.length_toList] at lengths

theorem Longer.valueAt {α : Type} {reader : Reader α} {cut full : Bytes}
    (longer : Longer cut full) (isLocal : Reader.Local reader)
    (position : Nat) :
    Follows Eq (reader.valueAt cut position) (reader.valueAt full position) := by
  intro value found
  obtain ⟨next, read⟩ := Reader.valueAt_eq_ok_iff.mp found
  have again := isLocal.extend longer read
  exact ⟨value, Reader.valueAt_eq_ok_iff.mpr ⟨next, again⟩, rfl⟩

private theorem Longer.header {cut full : Bytes} (longer : Longer cut full) :
    Follows Eq (Reader.header.valueAt cut 0)
      (Reader.header.valueAt full 0) := by
  intro value found
  obtain ⟨next, read⟩ := Reader.valueAt_eq_ok_iff.mp found
  have again := Reader.extend_header longer read
  exact ⟨value, Reader.valueAt_eq_ok_iff.mpr ⟨next, again⟩, rfl⟩

private theorem Longer.tableAt {α : Type} {record : Reader α} {cut full : Bytes}
    (longer : Longer cut full) (isLocal : Reader.Local record)
    (recordSize : Nat) (extent : Extent) :
    Follows Eq (tableAt record recordSize extent cut)
      (tableAt record recordSize extent full) := by
  unfold Dex.tableAt
  by_cases inside : extent.offset.toNat + extent.size.toNat * recordSize
      ≤ cut.size
  · have stillInside := Nat.le_trans inside longer.size_le
    simp only [if_pos inside, if_pos stillInside]
    have rows := Follows.mapMSame
      (fun row => longer.valueAt isLocal
        (extent.offset.toNat + row * recordSize))
      (List.range extent.size.toNat)
    intro table found
    split at found
    · rename_i values read
      rw [rows.same read]
      exact ⟨table, found, rfl⟩
    · cases found
  · simp only [if_neg inside]
    exact Follows.error _ _

theorem Longer.itemsAt {cut full : Bytes} (longer : Longer cut full)
    (offset : UInt32) :
    Follows Eq (itemsAt cut offset) (itemsAt full offset) := by
  unfold Dex.itemsAt
  by_cases nowhere : offset = 0
  · rw [if_pos nowhere, if_pos nowhere]
    exact Follows.refl _
  · rw [if_neg nowhere, if_neg nowhere]
    intro items found
    split at found
    · cases found
    · rename_i offsets read
      rw [(longer.valueAt Reader.local_itemOffsets _).same read]
      exact Follows.mapMSame (fun (entry : UInt32) =>
        longer.valueAt Reader.local_item entry.toNat) _ items found

structure Segment.Extends (cut full : Segment) : Prop where
  tables : full = { cut with data := full.data }
  longer : Longer cut.data full.data

namespace Segment

variable {cut full : Segment}

theorem parse_extends {cut full : Bytes} (longer : Longer cut full) :
    Follows Extends (parse cut) (parse full) := by
  apply longer.header.bindSame
  intro header
  apply (longer.tableAt Reader.local_u4 4 header.stringIds).bindSame
  intro strings
  apply (longer.tableAt Reader.local_u4 4 header.typeIds).bindSame
  intro types
  apply (longer.tableAt Reader.local_prototype 12 header.protoIds).bindSame
  intro prototypes
  apply (longer.tableAt Reader.local_field 8 header.fieldIds).bindSame
  intro fields
  apply (longer.tableAt Reader.local_method 8 header.methodIds).bindSame
  intro methods
  apply (longer.tableAt Reader.local_classDef 32 header.classDefs).bindSame
  intro classDefs
  exact Follows.ok { tables := rfl, longer := longer }

theorem Extends.string (extend : Extends cut full) (index : UInt32) :
    Follows Eq (cut.string index) (full.string index) := by
  have sameEntry : entry .strings full.strings index =
      entry .strings cut.strings index := by rw [extend.tables]
  unfold Segment.string
  rw [sameEntry]
  apply (Follows.refl _).bindSame
  intro offset
  apply (extend.longer.valueAt Reader.local_stringBytes offset.toNat).bindSame
  intro bytes
  exact Follows.refl _

theorem Extends.typeDescriptor (extend : Extends cut full) (index : UInt32) :
    Follows Eq (cut.typeDescriptor index) (full.typeDescriptor index) := by
  have sameEntry : entry .types full.types index =
      entry .types cut.types index := by rw [extend.tables]
  unfold Segment.typeDescriptor
  rw [sameEntry]
  exact (Follows.refl _).bindSame extend.string

private theorem Extends.fieldName (extend : Extends cut full) (index : UInt32) :
    Follows Eq (cut.fieldName index) (full.fieldName index) := by
  have sameField : full.field index = cut.field index := by
    rw [extend.tables]
    rfl
  unfold Segment.fieldName
  rw [sameField]
  exact (Follows.refl _).bindSame fun field => extend.string field.name

theorem Extends.methodName (extend : Extends cut full) (index : UInt32) :
    Follows Eq (cut.methodName index) (full.methodName index) := by
  have sameMethod : full.method index = cut.method index := by
    rw [extend.tables]
    rfl
  unfold Segment.methodName
  rw [sameMethod]
  exact (Follows.refl _).bindSame fun method => extend.string method.name

theorem Extends.className (extend : Extends cut full) (type : UInt32) :
    Follows Eq (cut.className type) (full.className type) :=
  (extend.typeDescriptor type).bindSame fun _ => Follows.refl _

theorem Extends.superclassDescriptor? (extend : Extends cut full)
    (definition : ClassDef) :
    Follows Eq (cut.superclassDescriptor? definition)
      (full.superclassDescriptor? definition) := by
  unfold Segment.superclassDescriptor?
  cases definition.superclass? with
  | none => exact Follows.refl _
  | some type =>
      exact (extend.typeDescriptor type).bindSame fun _ => Follows.refl _

theorem Extends.virtualMethodIndices (extend : Extends cut full)
    (definition : ClassDef) :
    Follows Eq (cut.virtualMethodIndices definition)
      (full.virtualMethodIndices definition) := by
  have members : Follows Eq (cut.classData definition)
      (full.classData definition) := by
    unfold Segment.classData
    by_cases absent : definition.classDataOffset = 0
    · rw [if_pos absent, if_pos absent]
      exact Follows.refl _
    · rw [if_neg absent, if_neg absent]
      exact extend.longer.valueAt Reader.local_classData _
  exact members.bindSame fun _ => Follows.refl _

theorem Extends.directory? (extend : Extends cut full)
    (definition : ClassDef) :
    Follows Eq (cut.directory? definition) (full.directory? definition) := by
  unfold Segment.directory?
  by_cases present : definition.hasDirectory = true
  · rw [if_pos present, if_pos present]
    exact (extend.longer.valueAt Reader.local_directory _).bindSame
      fun _ => Follows.refl _
  · rw [if_neg present, if_neg present]
    exact Follows.refl _

private theorem Extends.markerAmong (extend : Extends cut full)
    (indices : List Nat) :
    Follows Eq (cut.markerAmong indices) (full.markerAmong indices) := by
  induction indices with
  | nil => exact Follows.refl _
  | cons index rest ih =>
      unfold Segment.markerAmong
      intro marker found
      split at found
      · cases found
      · rename_i descriptor read
        rw [(extend.typeDescriptor _).same read]
        by_cases isMarker : descriptor = inheritedDescriptor
        · simp only [if_pos isMarker] at found ⊢
          exact ⟨marker, found, rfl⟩
        · simp only [if_neg isMarker] at found ⊢
          exact ih marker found

private theorem Extends.inheritedMarker (extend : Extends cut full) :
    Follows Eq cut.inheritedMarker full.inheritedMarker := by
  have sameTypes : full.types = cut.types := by rw [extend.tables]
  unfold Segment.inheritedMarker
  rw [sameTypes]
  exact extend.markerAmong _

/-! ### Values -/

mutual

theorem Extends.resolve (extend : Extends cut full) :
    ∀ value, Follows Eq (cut.resolve value) (full.resolve value)
  | .byte _ | .short _ | .char _ | .int _ | .long _ | .float _ | .double _
  | .bool _ | .null | .methodType _ | .methodHandle _ | .field _
  | .method _ => by
      unfold Segment.resolve
      exact Follows.refl _
  | .string index => by
      unfold Segment.resolve
      exact (extend.string index).bindSame fun _ => Follows.refl _
  | .type index => by
      unfold Segment.resolve
      exact (extend.typeDescriptor index).bindSame fun _ => Follows.refl _
  | .enum index => by
      unfold Segment.resolve
      exact (extend.fieldName index).bindSame fun _ => Follows.refl _
  | .array values => by
      unfold Segment.resolve
      exact (extend.resolveList values).bindSame fun _ => Follows.refl _
  | .nested type elements => by
      unfold Segment.resolve
      apply (extend.className type).bindSame
      intro name
      exact (extend.resolveElements elements).bindSame fun _ => Follows.refl _

theorem Extends.resolveList (extend : Extends cut full) :
    ∀ values, Follows Eq (cut.resolveList values) (full.resolveList values)
  | [] => by
      unfold Segment.resolveList
      exact Follows.refl _
  | value :: rest => by
      unfold Segment.resolveList
      apply (extend.resolve value).bindSame
      intro resolved
      exact (extend.resolveList rest).bindSame fun _ => Follows.refl _

theorem Extends.resolveElements (extend : Extends cut full) :
    ∀ elements, Follows Eq (cut.resolveElements elements)
      (full.resolveElements elements)
  | [] => by
      unfold Segment.resolveElements
      exact Follows.refl _
  | (nameIndex, value) :: rest => by
      unfold Segment.resolveElements
      apply (extend.string nameIndex).bindSame
      intro name
      apply (extend.resolve value).bindSame
      intro resolved
      exact (extend.resolveElements rest).bindSame fun _ => Follows.refl _

end
end Segment

namespace IndexedSegment

def Extends (cut full : IndexedSegment) : Prop :=
  cut.toSegment.Extends full.toSegment

variable {cut full : IndexedSegment}

theorem parse_extends {cut full : Bytes} (longer : Longer cut full) :
    Follows Extends (parse cut) (parse full) :=
  (Segment.parse_extends longer).bind fun _ _ extend => Follows.ok extend

private theorem Extends.carries (extend : Extends cut full)
    (definition : ClassDef)
    (type : UInt32) :
    Follows Eq (cut.carries definition type)
      (full.carries definition type) := by
  apply (Segment.Extends.directory? extend definition).bindSame
  intro directory
  cases directory with
  | none => exact Follows.refl _
  | some directory =>
      exact (extend.longer.itemsAt directory.classOffset).bindSame
        fun _ => Follows.refl _

private theorem Extends.isInherited (extend : Extends cut full)
    (type : UInt32) :
    Follows Eq (cut.isInherited type) (full.isInherited type) := by
  have sameDefinition : full.toSegment.definitionOf? type =
      cut.toSegment.definitionOf? type := by
    rw [extend.tables]
    rfl
  unfold IndexedSegment.isInherited
  rw [cut.marker_get, full.marker_get]
  apply (Segment.Extends.inheritedMarker extend).bindSame
  intro marker
  cases marker with
  | none => exact Follows.refl _
  | some marker =>
      simp only [cut.definitions_get, full.definitions_get, sameDefinition]
      cases cut.toSegment.definitionOf? type with
      | none => exact Follows.refl _
      | some definition => exact extend.carries definition marker

theorem Extends.annotationsAt (extend : Extends cut full) (offset : UInt32) :
    Follows Eq (cut.annotationsAt offset) (full.annotationsAt offset) := by
  apply (extend.longer.itemsAt offset).bindSame
  intro items
  apply Follows.mapMSame
  intro item
  apply (Segment.Extends.className extend item.payload.type).bindSame
  intro name
  apply (Segment.Extends.resolveElements extend item.payload.elements).bindSame
  intro pairs
  exact (extend.isInherited item.payload.type).bindSame fun _ => Follows.refl _

theorem Extends.classAnnotations (extend : Extends cut full)
    (directory : Option Directory) :
    Follows Eq (cut.classAnnotations directory)
      (full.classAnnotations directory) := by
  cases directory with
  | none => exact Follows.refl _
  | some directory => exact extend.annotationsAt directory.classOffset

theorem Extends.methodAnnotations (extend : Extends cut full)
    (method : UInt32) (directory : Option Directory) :
    Follows Eq (cut.methodAnnotations method directory)
      (full.methodAnnotations method directory) := by
  cases directory with
  | none => exact Follows.refl _
  | some directory =>
      simp only [IndexedSegment.methodAnnotations]
      cases directory.methodOffset? method with
      | none => exact Follows.refl _
      | some offset => exact extend.annotationsAt offset

end IndexedSegment
end Dex
end DexCensus
