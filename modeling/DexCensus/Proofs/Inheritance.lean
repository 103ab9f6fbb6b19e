/-
Which annotation types are inherited.

An annotation type is inherited exactly if the last definition of the type has
a set of annotations that can be read, with the marker type among them.  What
the annotations of the set carry themselves does not count.  If no descriptor
names two types, it does not matter that the marker is looked for once and by
its index.
-/

import DexCensus.Dex.Inheritance
import DexCensus.Proofs.Computation
import DexCensus.Proofs.Container
import DexCensus.Proofs.PlainString

namespace DexCensus
namespace Dex

namespace Segment

def HasTypeDescriptor (segment : Segment) (type : UInt32)
    (descriptor : String) : Prop :=
  segment.typeDescriptor type = .ok descriptor

/-- Every type has a descriptor that can be read, and no two types have the
same one. -/
structure TypesNamed (segment : Segment) : Prop where
  readable : ∀ type : UInt32, type.toNat < segment.types.size →
    ∃ descriptor, segment.HasTypeDescriptor type descriptor
  distinct : ∀ left right descriptor,
    segment.HasTypeDescriptor left descriptor →
    segment.HasTypeDescriptor right descriptor → left = right

def IsMarkerType (segment : Segment) (type : UInt32) : Prop :=
  segment.HasTypeDescriptor type inheritedDescriptor

theorem HasTypeDescriptor.inside {segment : Segment} {type : UInt32}
    {descriptor : String} (has : segment.HasTypeDescriptor type descriptor) :
    type.toNat < segment.types.size := by
  obtain ⟨index, listed, _⟩ := bind_eq_ok_iff.mp has
  rw [entry] at listed
  cases found : segment.types[type.toNat]? with
  | none =>
      rw [found] at listed
      cases listed
  | some other => exact (Array.getElem?_eq_some_iff.mp found).1

private theorem TypesNamed.of_list {segment : Segment}
    (descriptors : List String)
    (size : segment.types.size = descriptors.length)
    (read : ∀ index (inside : index < descriptors.length),
      segment.HasTypeDescriptor (UInt32.ofNat index) descriptors[index])
    (nodup : descriptors.Nodup) : segment.TypesNamed := by
  have listed (type : UInt32) (inside : type.toNat < descriptors.length) :
      segment.HasTypeDescriptor type descriptors[type.toNat] := by
    have has := read type.toNat inside
    rwa [UInt32.ofNat_toNat] at has
  constructor
  case readable =>
    intro type inside
    exact ⟨_, listed type (size ▸ inside)⟩
  case distinct =>
    intro left right descriptor leftHas rightHas
    have leftInside := size ▸ leftHas.inside
    have rightInside := size ▸ rightHas.inside
    have leftIs := Except.ok.inj (leftHas.symm.trans (listed _ leftInside))
    have rightIs := Except.ok.inj (rightHas.symm.trans (listed _ rightInside))
    exact UInt32.toNat_inj.mp ((List.Nodup.getElem_inj_iff nodup).mp
      (leftIs.symm.trans rightIs))

private theorem markerAmong_cases {segment : Segment} {indices : List Nat}
    (readable : ∀ index ∈ indices, ∃ descriptor,
      segment.HasTypeDescriptor (UInt32.ofNat index) descriptor) :
    (∃ marker, segment.markerAmong indices = .ok (some marker) ∧
      segment.IsMarkerType marker) ∨
    (segment.markerAmong indices = .ok none ∧
      ∀ index ∈ indices, ¬ segment.IsMarkerType (UInt32.ofNat index)) := by
  induction indices with
  | nil => exact Or.inr ⟨rfl, by simp⟩
  | cons index rest ih =>
      obtain ⟨⟨descriptor, read⟩, restReadable⟩ :=
        List.forall_mem_cons.mp readable
      rw [markerAmong, read]
      by_cases isMarker : descriptor = inheritedDescriptor
      · simp only [if_pos isMarker]
        refine Or.inl ⟨_, rfl, ?_⟩
        rw [IsMarkerType, ← isMarker]
        exact read
      · simp only [if_neg isMarker]
        rcases ih restReadable with found | ⟨nothing, others⟩
        · exact Or.inl found
        · refine Or.inr ⟨nothing, List.forall_mem_cons.mpr ⟨?_, others⟩⟩
          intro marked
          exact isMarker (Except.ok.inj (read.symm.trans marked))

theorem TypesNamed.inheritedMarker_cases {segment : Segment}
    (named : segment.TypesNamed) :
    (∃ marker, segment.inheritedMarker = .ok (some marker) ∧
      ∀ type, segment.IsMarkerType type ↔ type = marker) ∨
    (segment.inheritedMarker = .ok none ∧
      ∀ type, ¬ segment.IsMarkerType type) := by
  have wrapped {index : Nat} (inside : index < segment.types.size) :
      (UInt32.ofNat index).toNat < segment.types.size := by
    rw [UInt32.toNat_ofNat']
    exact Nat.lt_of_le_of_lt (Nat.mod_le _ _) inside
  have readable : ∀ index ∈ List.range segment.types.size, ∃ descriptor,
      segment.HasTypeDescriptor (UInt32.ofNat index) descriptor :=
    fun index member => named.readable _ (wrapped (List.mem_range.mp member))
  rcases markerAmong_cases readable with
    ⟨marker, found, isMarker⟩ | ⟨nothing, others⟩
  · refine Or.inl ⟨marker, found, ?_⟩
    intro type
    constructor
    · intro marked
      exact named.distinct _ _ _ marked isMarker
    · intro same
      exact same ▸ isMarker
  · refine Or.inr ⟨nothing, ?_⟩
    intro type marked
    have listed := List.mem_range.mpr marked.inside
    rw [← UInt32.ofNat_toNat (x := type)] at marked
    exact others type.toNat listed marked

/-- A definition of a type that no later one replaces. -/
def LastDefinition (segment : Segment) (type : UInt32)
    (definition : ClassDef) : Prop :=
  ∃ earlier later, segment.classDefs.toList = earlier ++ definition :: later ∧
    definition.classType = type ∧ ∀ other ∈ later, other.classType ≠ type

private theorem definitionOf?_eq_some_iff (segment : Segment) (type : UInt32)
    (definition : ClassDef) :
    segment.definitionOf? type = some definition ↔
      segment.LastDefinition type definition := by
  unfold definitionOf? lastDefinition
  rw [List.find?_eq_some_iff_append]
  constructor
  · intro ⟨isLast, later, earlier, split, others⟩
    have whole := congrArg List.reverse split
    rw [List.reverse_reverse, List.reverse_append, List.reverse_cons,
      List.append_assoc, List.singleton_append] at whole
    refine ⟨_, _, whole, beq_iff_eq.mp isLast, ?_⟩
    intro other member
    have differs := others other (List.mem_reverse.mp member)
    simpa using differs
  · intro ⟨earlier, later, split, isLast, others⟩
    refine ⟨beq_iff_eq.mpr isLast, later.reverse, earlier.reverse, ?_, ?_⟩
    · rw [split, List.reverse_append, List.reverse_cons, List.append_assoc,
        List.singleton_append]
    · intro other member
      have differs := others other (List.mem_reverse.mp member)
      simpa using differs

private theorem definitionOf?_eq_none_iff (segment : Segment) (type : UInt32) :
    segment.definitionOf? type = none ↔
      ∀ definition ∈ segment.classDefs.toList,
        definition.classType ≠ type := by
  unfold definitionOf? lastDefinition
  rw [List.find?_eq_none]
  simp only [List.mem_reverse, beq_iff_eq, ne_eq]

/-- The annotation items of a class itself.  There are none without a directory
or without a set in it. -/
inductive OwnItems (segment : Segment) (definition : ClassDef) :
    List Item → Prop
  | noDirectory :
      definition.annotationsOffset = 0 → OwnItems segment definition []
  | noSet {directory : Directory} :
      segment.directory? definition = .ok (some directory) →
      directory.classOffset = 0 → OwnItems segment definition []
  | set {directory : Directory} {items : List Item} :
      segment.directory? definition = .ok (some directory) →
      directory.classOffset ≠ 0 →
      itemsAt segment.data directory.classOffset = .ok items →
        OwnItems segment definition items

/-- The directory of a class or the set of the class itself cannot be read. -/
inductive OwnItemsFail (segment : Segment) (definition : ClassDef) :
    Fault → Prop
  | directory {fault : Fault} :
      segment.directory? definition = .error fault →
        OwnItemsFail segment definition fault
  | set {directory : Directory} {fault : Fault} :
      segment.directory? definition = .ok (some directory) →
      itemsAt segment.data directory.classOffset = .error fault →
        OwnItemsFail segment definition fault

theorem directory?_eq_none_iff (segment : Segment) (definition : ClassDef) :
    segment.directory? definition = .ok none ↔
      definition.annotationsOffset = 0 := by
  unfold directory?
  constructor
  · intro nothing
    split at nothing
    · obtain ⟨directory, _, impossible⟩ := bind_eq_ok_iff.mp nothing
      cases impossible
    · rename_i none
      simpa [ClassDef.hasDirectory] using none
  · intro absent
    simp [ClassDef.hasDirectory, absent]

end Segment

namespace IndexedSegment

/-! ### Inherited types -/

theorem carries_of_ownItems {segment : IndexedSegment}
    {definition : ClassDef} {items : List Item}
    (own : segment.OwnItems definition items) (marker : UInt32) :
    segment.carries definition marker =
      .ok (items.any fun item => item.payload.type == marker) := by
  cases own with
  | noDirectory absent =>
      exact bind_of_eq_ok
        ((segment.directory?_eq_none_iff definition).mpr absent)
  | noSet read absent =>
      refine (bind_of_eq_ok read).trans (bind_of_eq_ok ?_)
      rw [itemsAt, if_pos absent]
  | set read present resolved =>
      exact (bind_of_eq_ok read).trans (bind_of_eq_ok resolved)

theorem carries_of_ownItemsFail {segment : IndexedSegment}
    {definition : ClassDef} {fault : Fault}
    (fails : segment.OwnItemsFail definition fault) (marker : UInt32) :
    segment.carries definition marker = .error fault := by
  cases fails with
  | directory failed => exact bind_of_eq_error failed
  | set read failed =>
      exact (bind_of_eq_ok read).trans (bind_of_eq_error failed)

theorem ownItems_or_fail (segment : Segment) (definition : ClassDef) :
    (∃ items, segment.OwnItems definition items) ∨
      ∃ fault, segment.OwnItemsFail definition fault := by
  cases read : segment.directory? definition with
  | error fault => exact Or.inr ⟨fault, .directory read⟩
  | ok found =>
      cases found with
      | none =>
          exact Or.inl ⟨[],
            .noDirectory ((segment.directory?_eq_none_iff _).mp read)⟩
      | some directory =>
          by_cases absent : directory.classOffset = 0
          · exact Or.inl ⟨[], .noSet read absent⟩
          · cases resolved : itemsAt segment.data directory.classOffset with
            | error fault => exact Or.inr ⟨fault, .set read resolved⟩
            | ok items => exact Or.inl ⟨items, .set read absent resolved⟩

theorem carries_eq_ok_iff (segment : IndexedSegment) (definition : ClassDef)
    (marker : UInt32) (carried : Bool) :
    segment.carries definition marker = .ok carried ↔
      ∃ items, segment.OwnItems definition items ∧
        carried = items.any fun item => item.payload.type == marker := by
  constructor
  · intro found
    rcases ownItems_or_fail segment.toSegment definition with
      ⟨items, own⟩ | ⟨fault, fails⟩
    · rw [carries_of_ownItems own] at found
      exact ⟨items, own, (Except.ok.inj found).symm⟩
    · rw [carries_of_ownItemsFail fails] at found
      cases found
  · intro ⟨items, own, same⟩
    rw [carries_of_ownItems own, same]

theorem carries_eq_error_iff (segment : IndexedSegment)
    (definition : ClassDef) (marker : UInt32) (fault : Fault) :
    segment.carries definition marker = .error fault ↔
      segment.OwnItemsFail definition fault := by
  constructor
  · intro found
    rcases ownItems_or_fail segment.toSegment definition with
      ⟨items, own⟩ | ⟨other, fails⟩
    · rw [carries_of_ownItems own] at found
      cases found
    · rw [carries_of_ownItemsFail fails] at found
      cases found
      exact fails
  · intro fails
    exact carries_of_ownItemsFail fails marker

theorem isInherited_of_no_marker {segment : IndexedSegment}
    (nothing : segment.inheritedMarker = .ok none) (type : UInt32) :
    segment.isInherited type = .ok false := by
  unfold isInherited
  rw [segment.marker_get]
  exact bind_of_eq_ok nothing

private theorem isInherited_of_marker {segment : IndexedSegment}
    {marker : UInt32}
    (found : segment.inheritedMarker = .ok (some marker)) (type : UInt32) :
    segment.isInherited type =
      match segment.definitionOf? type with
      | none => .ok false
      | some definition => segment.carries definition marker := by
  unfold isInherited
  rw [segment.marker_get, segment.definitions_get]
  exact bind_of_eq_ok found

private theorem isInherited_of_same_segment {segment other : IndexedSegment}
    (same : other.toSegment = segment.toSegment) (type : UInt32) :
    other.isInherited type = segment.isInherited type := by
  unfold isInherited carries
  rw [other.marker_get, segment.marker_get, other.definitions_get,
    segment.definitions_get, same]

theorem isInherited_eq_iff_of_marker {segment : IndexedSegment}
    {marker : UInt32} (found : segment.inheritedMarker = .ok (some marker))
    (type : UInt32) (answer : Except Fault Bool) :
    segment.isInherited type = answer ↔
      (∃ definition, segment.LastDefinition type definition ∧
        segment.carries definition marker = answer) ∨
      ((∀ definition ∈ segment.classDefs.toList,
        definition.classType ≠ type) ∧ .ok false = answer) := by
  simp only [isInherited_of_marker found, ← Segment.definitionOf?_eq_some_iff,
    ← Segment.definitionOf?_eq_none_iff]
  cases segment.definitionOf? type with
  | none => simp
  | some definition => simp

variable {segment : IndexedSegment}

private theorem isInherited_eq_true_iff (named : segment.TypesNamed)
    (type : UInt32) :
    segment.isInherited type = .ok true ↔
      ∃ definition items, segment.LastDefinition type definition ∧
        segment.OwnItems definition items ∧
        ∃ item ∈ items, segment.IsMarkerType item.payload.type := by
  rcases named.inheritedMarker_cases with
    ⟨marker, found, isMarker⟩ | ⟨nothing, noMarker⟩
  · simp only [isInherited_eq_iff_of_marker found, carries_eq_ok_iff, isMarker]
    constructor
    · rintro (⟨definition, last, items, own, carried⟩ | ⟨_, impossible⟩)
      · obtain ⟨item, member, same⟩ := List.any_eq_true.mp carried.symm
        exact ⟨definition, items, last, own, item, member, beq_iff_eq.mp same⟩
      · cases impossible
    · intro ⟨definition, items, last, own, item, member, same⟩
      refine Or.inl ⟨definition, last, items, own, ?_⟩
      refine (List.any_eq_true.mpr ?_).symm
      exact ⟨item, member, beq_iff_eq.mpr same⟩
  · rw [isInherited_of_no_marker nothing]
    constructor
    · intro impossible
      cases impossible
    · intro ⟨_, _, _, _, item, _, marked⟩
      exact (noMarker _ marked).elim

theorem isInherited_eq_error_iff (named : segment.TypesNamed)
    (type : UInt32) (fault : Fault) :
    segment.isInherited type = .error fault ↔
      (∃ marker, segment.IsMarkerType marker) ∧
        ∃ definition, segment.LastDefinition type definition ∧
          segment.OwnItemsFail definition fault := by
  rcases named.inheritedMarker_cases with
    ⟨marker, found, isMarker⟩ | ⟨nothing, noMarker⟩
  · rw [isInherited_eq_iff_of_marker found]
    simp only [carries_eq_error_iff]
    constructor
    · rintro (fails | ⟨_, impossible⟩)
      · exact ⟨⟨marker, (isMarker marker).mpr rfl⟩, fails⟩
      · cases impossible
    · intro ⟨_, fails⟩
      exact Or.inl fails
  · rw [isInherited_of_no_marker nothing]
    constructor
    · intro impossible
      cases impossible
    · intro ⟨⟨marker, marked⟩, _⟩
      exact (noMarker _ marked).elim

private theorem isInherited_eq_false_iff (named : segment.TypesNamed)
    (type : UInt32) :
    segment.isInherited type = .ok false ↔
      (∀ marker, ¬ segment.IsMarkerType marker) ∨
      (∀ definition ∈ segment.classDefs.toList,
        definition.classType ≠ type) ∨
      ∃ definition items, segment.LastDefinition type definition ∧
        segment.OwnItems definition items ∧
        ∀ item ∈ items, ¬ segment.IsMarkerType item.payload.type := by
  rcases named.inheritedMarker_cases with
    ⟨marker, found, isMarker⟩ | ⟨nothing, noMarker⟩
  · rw [isInherited_eq_iff_of_marker found]
    simp only [carries_eq_ok_iff, isMarker]
    constructor
    · rintro (⟨definition, last, items, own, carried⟩ | ⟨undefined, _⟩)
      · have others := List.any_eq_false.mp carried.symm
        simp only [beq_iff_eq] at others
        exact Or.inr (Or.inr ⟨definition, items, last, own, others⟩)
      · exact Or.inr (Or.inl undefined)
    · rintro (noMarker | undefined | ⟨definition, items, last, own, others⟩)
      · exact (noMarker marker rfl).elim
      · exact Or.inr ⟨undefined, trivial⟩
      · refine Or.inl ⟨definition, last, items, own, ?_⟩
        refine (List.any_eq_false.mpr ?_).symm
        intro item member same
        exact others item member (beq_iff_eq.mp same)
  · rw [isInherited_of_no_marker nothing]
    exact ⟨fun _ => Or.inl noMarker, fun _ => rfl⟩

/-- An annotation type is inherited exactly if the class that is defined last
for it has an annotation of the marker type itself.  It is a fault only if
there is a marker type and the annotations of this class cannot be read.  In
all other cases the type is not inherited: there is no marker type, the type
is not defined in the segment, or the class has annotations of other types
only, whatever those types are annotated with.  What was looked up before makes
no difference. -/
theorem isInherited_exact (segment : IndexedSegment)
    (named : segment.TypesNamed) (type : UInt32) :
    (segment.isInherited type = .ok true ↔
      ∃ definition items, segment.LastDefinition type definition ∧
        segment.OwnItems definition items ∧
        ∃ item ∈ items, segment.IsMarkerType item.payload.type) ∧
    (∀ fault, segment.isInherited type = .error fault ↔
      (∃ marker, segment.IsMarkerType marker) ∧
        ∃ definition, segment.LastDefinition type definition ∧
          segment.OwnItemsFail definition fault) ∧
    (segment.isInherited type = .ok false ↔
      (∀ marker, ¬ segment.IsMarkerType marker) ∨
      (∀ definition ∈ segment.classDefs.toList,
        definition.classType ≠ type) ∨
      ∃ definition items, segment.LastDefinition type definition ∧
        segment.OwnItems definition items ∧
        ∀ item ∈ items, ¬ segment.IsMarkerType item.payload.type) ∧
    ∀ other : IndexedSegment, other.toSegment = segment.toSegment →
      other.isInherited type = segment.isInherited type :=
  ⟨isInherited_eq_true_iff named type, isInherited_eq_error_iff named type,
    isInherited_eq_false_iff named type,
    fun _ same => isInherited_of_same_segment same type⟩

/-! ### A marker behind a replaced definition -/

/-- The strings `Ljava/lang/annotation/Inherited;`, `LA;`, `LB;` and `LC;`,
the directories of `A` and `B`, their sets, of which the first starts with an
offset of zero, and an item of the marker type and one of the type `A`. -/
def inheritingBytes : Bytes :=
  #[32, 0x4c, 0x6a, 0x61, 0x76, 0x61, 0x2f, 0x6c, 0x61, 0x6e, 0x67, 0x2f,
    0x61, 0x6e, 0x6e, 0x6f, 0x74, 0x61, 0x74, 0x69, 0x6f, 0x6e, 0x2f, 0x49,
    0x6e, 0x68, 0x65, 0x72, 0x69, 0x74, 0x65, 0x64, 0x3b, 0,
    3, 0x4c, 0x41, 0x3b, 0, 3, 0x4c, 0x42, 0x3b, 0, 3, 0x4c, 0x43, 0x3b, 0,
    81, 0, 0, 0, 0, 0, 0, 0, 0, 0, 0, 0, 0, 0, 0, 0,
    93, 0, 0, 0, 0, 0, 0, 0, 0, 0, 0, 0, 0, 0, 0, 0,
    2, 0, 0, 0, 0, 0, 0, 0, 101, 0, 0, 0,
    1, 0, 0, 0, 104, 0, 0, 0,
    1, 0, 0, 1, 1, 0]

def annotatedClass (type annotationsOffset : UInt32) : ClassDef :=
  { classDefAt #[] 0 with
    classType := type
    annotationsOffset := annotationsOffset }

/-- `A` is defined twice, the second time with the marker.  `B` has the
annotation `A`, and the directory of `C` is missing. -/
def inheritingSegment : Segment :=
  { segmentAt #[] 35 with
    strings := #[0, 34, 39, 44]
    types := #[0, 1, 2, 3]
    classDefs := #[annotatedClass 1 0, annotatedClass 1 49,
      annotatedClass 2 65, annotatedClass 3 107]
    data := inheritingBytes }

theorem inheritingSegment_typeDescriptor :
    inheritingSegment.HasTypeDescriptor 0 inheritedDescriptor ∧
    inheritingSegment.HasTypeDescriptor 1 "LA;" ∧
    inheritingSegment.HasTypeDescriptor 2 "LB;" ∧
    inheritingSegment.HasTypeDescriptor 3 "LC;" := by
  have described (index offset length : UInt32) (start : Nat) (text : String)
      (listed : Segment.entry .types inheritingSegment.types index = .ok index)
      (found : Segment.entry .strings inheritingSegment.strings index =
        .ok offset)
      (counted : Reader.uleb128 inheritingBytes offset.toNat =
        .ok (length, start))
      (stands : text.toList.map plainByte ++ [0] <+:
        inheritingBytes.toList.drop start)
      (plain : IsPlain text.toList) :
      inheritingSegment.HasTypeDescriptor index text :=
    typeDescriptor_of_plain listed found counted stands plain
  exact ⟨described 0 0 32 1 _ rfl rfl rfl (by decide) (by decide),
    described 1 34 3 35 _ rfl rfl rfl (by decide) (by decide),
    described 2 39 3 40 _ rfl rfl rfl (by decide) (by decide),
    described 3 44 3 45 _ rfl rfl rfl (by decide) (by decide)⟩

private theorem typesNamed_inheritingSegment :
    inheritingSegment.TypesNamed := by
  obtain ⟨marker, first, second, third⟩ := inheritingSegment_typeDescriptor
  apply Segment.TypesNamed.of_list [inheritedDescriptor, "LA;", "LB;", "LC;"]
  case size => rfl
  case nodup => decide
  case read =>
    intro index inside
    match index with
    | 0 => exact marker
    | 1 => exact first
    | 2 => exact second
    | 3 => exact third

def bareItem (type : UInt32) : Item :=
  { visibility := 1, payload := { type := type, elements := [] } }

private theorem inheritingSegment_ownItems :
    inheritingSegment.OwnItems (annotatedClass 1 49) [bareItem 0] ∧
    inheritingSegment.OwnItems (annotatedClass 2 65) [bareItem 1] ∧
    inheritingSegment.OwnItemsFail (annotatedClass 3 107)
      (.numberPastEnd .four 107) :=
  ⟨.set rfl (by decide) rfl, .set rfl (by decide) rfl, .directory rfl⟩

/-- `A` is inherited, and `B`, which has only `A`, is not.  Nor is the marker,
which is not defined, and the annotations of `C` cannot be read. -/
theorem inheritingSegment_inherited :
    inheritingSegment.TypesNamed ∧
    inheritingSegment.indexed.isInherited 1 = .ok true ∧
    inheritingSegment.indexed.isInherited 2 = .ok false ∧
    inheritingSegment.indexed.isInherited 0 = .ok false ∧
    inheritingSegment.indexed.isInherited 3 =
      .error (.numberPastEnd .four 107) := by
  obtain ⟨marker, first, _⟩ := inheritingSegment_typeDescriptor
  obtain ⟨markerItem, otherItem, fails⟩ := inheritingSegment_ownItems
  have answers (type : UInt32) := isInherited_exact inheritingSegment.indexed
    typesNamed_inheritingSegment type
  have inherited : inheritingSegment.indexed.isInherited 1 = .ok true := by
    apply (answers 1).1.mpr
    exact ⟨_, _, ⟨[annotatedClass 1 0], _, rfl, rfl, by decide⟩, markerItem,
      _, List.mem_singleton_self _, marker⟩
  have notPassedOn : inheritingSegment.indexed.isInherited 2 = .ok false := by
    apply (answers 2).2.2.1.mpr
    refine Or.inr (Or.inr ⟨_, _,
      ⟨[annotatedClass 1 0, annotatedClass 1 49], _, rfl, rfl, by decide⟩,
      otherItem, ?_⟩)
    intro item member marked
    cases List.mem_singleton.mp member
    exact absurd (Except.ok.inj (first.symm.trans marked)) (by decide)
  have undefinedMarker :
      inheritingSegment.indexed.isInherited 0 = .ok false := by
    apply (answers 0).2.2.1.mpr
    exact Or.inr (Or.inl (by decide))
  have unreadable : inheritingSegment.indexed.isInherited 3 =
      .error (.numberPastEnd .four 107) := by
    apply ((answers 3).2.1 _).mpr
    exact ⟨⟨0, marker⟩, _,
      ⟨[annotatedClass 1 0, annotatedClass 1 49, annotatedClass 2 65], [],
        rfl, rfl, by decide⟩, fails⟩
  exact ⟨typesNamed_inheritingSegment, inherited, notPassedOn,
    undefinedMarker, unreadable⟩

end IndexedSegment
end Dex
end DexCensus
