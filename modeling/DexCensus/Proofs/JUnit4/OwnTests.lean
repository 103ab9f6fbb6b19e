/-
Which methods of a class are its own tests.

The virtual methods are gone through in order.  One that has a pair in the
directory of the class is a test if the annotations of the class, followed by
those of its first pair, have a marker among them; all others are passed over.
Tests that are the same are listed once.  Without a directory there are no
tests, and it does not matter what the class data say or whether they can be
read.
-/

import DexCensus.Proofs.Inheritance
import DexCensus.Proofs.JUnit4.InheritedTest
import DexCensus.Proofs.Markers
import DexCensus.Proofs.OrderedSet

namespace DexCensus
namespace JUnit4

open Dex

def FirstPair (directory : Directory) (method offset : UInt32) : Prop :=
  ∃ before after,
    directory.methods =
      before ++ { member := method, offset := offset } :: after ∧
    ∀ pair ∈ before, pair.member ≠ method

def NoPair (directory : Directory) (method : UInt32) : Prop :=
  ∀ pair ∈ directory.methods, pair.member ≠ method

theorem methodOffset?_eq_some_iff (directory : Directory)
    (method offset : UInt32) :
    directory.methodOffset? method = some offset ↔
      FirstPair directory method offset := by
  unfold Directory.methodOffset?
  rw [Option.map_eq_some_iff]
  simp only [List.find?_eq_some_iff_append]
  constructor
  · rintro ⟨pair, ⟨isFor, before, after, split, others⟩, same⟩
    obtain ⟨member, offset⟩ := pair
    cases same
    cases beq_iff_eq.mp isFor
    refine ⟨before, after, split, ?_⟩
    intro other inBefore
    simpa using others other inBefore
  · rintro ⟨before, after, split, others⟩
    refine ⟨_, ⟨beq_iff_eq.mpr rfl, before, after, split, ?_⟩, rfl⟩
    intro other inBefore
    simpa using others other inBefore

theorem methodOffset?_eq_none_iff (directory : Directory) (method : UInt32) :
    directory.methodOffset? method = none ↔ NoPair directory method := by
  unfold Directory.methodOffset?
  rw [Option.map_eq_none_iff, List.find?_eq_none]
  simp only [NoPair, beq_iff_eq, ne_eq]

private theorem hasMethod_eq_false_iff (directory : Directory)
    (method : UInt32) :
    directory.hasMethod method = false ↔ NoPair directory method := by
  simp only [Directory.hasMethod, NoPair, List.any_eq_false, beq_iff_eq,
    ne_eq]

private theorem noPair_or_firstPair (directory : Directory) (method : UInt32) :
    NoPair directory method ∨ ∃ offset, FirstPair directory method offset := by
  cases found : directory.methodOffset? method with
  | none => exact Or.inl ((methodOffset?_eq_none_iff _ _).mp found)
  | some offset =>
      exact Or.inr ⟨offset, (methodOffset?_eq_some_iff _ _ _).mp found⟩

private theorem FirstPair.not_noPair {directory : Directory}
    {method offset : UInt32} (first : FirstPair directory method offset) :
    ¬ NoPair directory method := by
  intro nothing
  rw [← methodOffset?_eq_none_iff,
    (methodOffset?_eq_some_iff _ _ _).mpr first] at nothing
  cases nothing

/-- The annotations of the set at an offset, where zero stands for no set. -/
inductive SetAnnotations (segment : IndexedSegment) (offset : UInt32) :
    List TestAnnotation → Prop
  | noSet : offset = 0 → SetAnnotations segment offset []
  | items {items : List Item} {entries : List TestAnnotation} :
      offset ≠ 0 → itemsAt segment.data offset = .ok items →
      List.Forall₂ (fun item entry => segment.resolveItem item = .ok entry)
        items entries → SetAnnotations segment offset entries

theorem annotationsAt_eq_ok_iff (segment : IndexedSegment) (offset : UInt32)
    (entries : List TestAnnotation) :
    segment.annotationsAt offset = .ok entries ↔
      SetAnnotations segment offset entries := by
  unfold IndexedSegment.annotationsAt
  rw [bind_eq_ok_iff]
  simp only [mapM_eq_ok_iff]
  constructor
  · rintro ⟨items, read, resolved⟩
    by_cases absent : offset = 0
    · rw [itemsAt, if_pos absent] at read
      cases read
      cases resolved
      exact .noSet absent
    · exact .items absent read resolved
  · intro annotations
    cases annotations with
    | noSet absent =>
        refine ⟨[], ?_, .nil⟩
        rw [itemsAt, if_pos absent]
    | items present read resolved => exact ⟨_, read, resolved⟩

def PairAnnotations (segment : IndexedSegment) (directory : Directory)
    (method : UInt32) (own : List TestAnnotation) : Prop :=
  ∃ offset, FirstPair directory method offset ∧
    SetAnnotations segment offset own

theorem methodAnnotations_eq_ok_iff {segment : IndexedSegment}
    {directory : Directory} {method offset : UInt32}
    (first : FirstPair directory method offset) (own : List TestAnnotation) :
    segment.methodAnnotations method (some directory) = .ok own ↔
      PairAnnotations segment directory method own := by
  have found := (methodOffset?_eq_some_iff _ _ _).mpr first
  simp only [IndexedSegment.methodAnnotations, found, annotationsAt_eq_ok_iff]
  constructor
  · intro annotations
    exact ⟨offset, first, annotations⟩
  · rintro ⟨other, otherFirst, annotations⟩
    rw [← methodOffset?_eq_some_iff, found] at otherFirst
    cases otherFirst
    exact annotations

def Marked (markers : List String) (entries : List TestAnnotation) : Prop :=
  ∃ entry ∈ entries,
    entry.name = testMarker ∨ (entry.name ≠ "" ∧ entry.name ∈ markers)

private theorem any_isMarker_iff (markers : List String)
    (entries : List TestAnnotation) :
    (entries.any fun entry => isMarker markers entry.name) = true ↔
      Marked markers entries := by
  simp only [List.any_eq_true, isMarker_iff, Marked]

/-- What a method contributes to the tests of a class with a name and
annotations: a test, or nothing if it has no pair or no marker. -/
inductive Contributes (markers : List String) (segment : IndexedSegment)
    (directory : Directory) (className : String)
    (entries : List TestAnnotation) (method : UInt32) :
    Option TestMethod → Prop
  | test {own : List TestAnnotation} {methodName : String} :
      PairAnnotations segment directory method own →
      Marked markers (entries ++ own) →
      segment.methodName method = .ok methodName →
        Contributes markers segment directory className entries method
          (some {
            testName := TestName.ofParts className methodName
            annotations := entries ++ own })
  | noPair :
      NoPair directory method →
        Contributes markers segment directory className entries method none
  | notMarked {own : List TestAnnotation} :
      PairAnnotations segment directory method own →
      ¬ Marked markers (entries ++ own) →
        Contributes markers segment directory className entries method none

theorem markedTest?_eq_ok_iff (markers : List String)
    (segment : IndexedSegment) (directory : Directory) (className : String)
    (entries : List TestAnnotation) (method : UInt32)
    (found : Option TestMethod) :
    markedTest? markers segment directory className entries method =
        .ok found ↔
      Contributes markers segment directory className entries method found := by
  unfold markedTest?
  rcases noPair_or_firstPair directory method with nothing | ⟨offset, first⟩
  · have unlisted := (hasMethod_eq_false_iff directory method).mpr nothing
    rw [if_neg (Bool.eq_false_iff.mp unlisted)]
    constructor
    · intro found
      cases found
      exact .noPair nothing
    · intro contributes
      cases contributes with
      | noPair => rfl
      | test pair | notMarked pair =>
          obtain ⟨_, first, _⟩ := pair
          exact (first.not_noPair nothing).elim
  · have listed : directory.hasMethod method = true := by
      rw [← Bool.not_eq_false, hasMethod_eq_false_iff]
      exact first.not_noPair
    rw [if_pos listed, bind_eq_ok_iff]
    simp only [methodAnnotations_eq_ok_iff first]
    constructor
    · rintro ⟨own, pair, found⟩
      by_cases marked : Marked markers (entries ++ own)
      · rw [if_pos ((any_isMarker_iff _ _).mpr marked), bind_eq_ok_iff]
          at found
        obtain ⟨methodName, named, whole⟩ := found
        cases whole
        exact .test pair marked named
      · rw [if_neg fun any => marked ((any_isMarker_iff _ _).mp any)] at found
        cases found
        exact .notMarked pair marked
    · intro contributes
      cases contributes with
      | test pair marked named =>
          refine ⟨_, pair, ?_⟩
          rw [if_pos ((any_isMarker_iff _ _).mpr marked)]
          exact bind_eq_ok_iff.mpr ⟨_, named, rfl⟩
      | noPair nothing => exact (first.not_noPair nothing).elim
      | notMarked pair unmarked =>
          refine ⟨_, pair, ?_⟩
          rw [if_neg fun any => unmarked ((any_isMarker_iff _ _).mp any)]
          rfl

/-! ### Own tests of a class -/

/-- A definition whose class data are said to stand elsewhere. -/
def withClassDataAt (definition : Definition) (offset : UInt32) : Definition :=
  { definition with
    classDef := { definition.classDef with classDataOffset := offset } }

private theorem summaryOf_of_no_directory (markers : List String)
    {definition : Definition}
    (noDirectory : definition.classDef.annotationsOffset = 0)
    (descriptor : String) :
    summaryOf markers definition descriptor = (do
      let name ← Descriptor.className descriptor
      let superclassName ← superclassName? definition.segment.toSegment
        definition.classDef
      return {
        name := name
        segmentNumber := definition.segmentNumber
        classType := definition.classDef.classType
        superclassName := superclassName
        annotations := []
        tests := []
        isConcrete := definition.classDef.isConcrete }) := by
  have nothing := (Segment.directory?_eq_none_iff
    definition.segment.toSegment definition.classDef).mpr noDirectory
  simp only [summaryOf, nothing]
  rfl

private theorem summarize_withClassDataAt (markers : List String)
    {definition : Definition}
    (noDirectory : definition.classDef.annotationsOffset = 0)
    (offset : UInt32) :
    summarize markers (withClassDataAt definition offset) =
      summarize markers definition := by
  have sameSummary (descriptor : String) :
      summaryOf markers (withClassDataAt definition offset) descriptor =
        summaryOf markers definition descriptor := by
    have elsewhere :
        (withClassDataAt definition offset).classDef.annotationsOffset = 0 :=
      noDirectory
    rw [summaryOf_of_no_directory markers elsewhere,
      summaryOf_of_no_directory markers noDirectory]
    rfl
  unfold summarize
  simp only [sameSummary]
  rfl

/-- The own tests of a class with a directory are what its virtual methods
contribute, in order and each test once.  A class without a directory has none,
and nothing that is learned of it depends on its class data. -/
theorem own_tests_exact (markers : List String) (definition : Definition) :
    (∀ summary, summarize markers definition = .ok summary →
      HasName definition summary.name ∧
      (definition.classDef.annotationsOffset ≠ 0 →
        ∃ directory members found,
          definition.segment.directory? definition.classDef =
            .ok (some directory) ∧
          SetAnnotations definition.segment directory.classOffset
            summary.annotations ∧
          definition.segment.classData definition.classDef = .ok members ∧
          List.Forall₂ (Contributes markers definition.segment directory
            summary.name summary.annotations)
            members.virtualMethodIndices found ∧
          summary.tests = (found.filterMap id).eraseDups) ∧
      (definition.classDef.annotationsOffset = 0 → summary.tests = [])) ∧
    (definition.classDef.annotationsOffset = 0 → ∀ offset,
      summarize markers (withClassDataAt definition offset) =
        summarize markers definition) := by
  refine ⟨?_, summarize_withClassDataAt markers⟩
  intro summary summarized
  have summarizes := (summarize_eq_ok_iff definition summary).mp summarized
  obtain ⟨directory?, read, resolved, listed⟩ := summarizes.contents
  refine ⟨summarizes.name, ?_, ?_⟩
  · intro present
    cases directory? with
    | none =>
        exact absurd ((Segment.directory?_eq_none_iff _ _).mp read) present
    | some directory =>
        obtain ⟨methods, virtual, marked⟩ := bind_eq_ok_iff.mp listed
        obtain ⟨members, membersRead, same⟩ := bind_eq_ok_iff.mp virtual
        obtain ⟨found, examined, whole⟩ := bind_eq_ok_iff.mp marked
        cases same
        have each := mapM_eq_ok_iff.mp examined
        simp only [markedTest?_eq_ok_iff] at each
        refine ⟨directory, members, found, read,
          (annotationsAt_eq_ok_iff _ _ _).mp resolved, membersRead, each, ?_⟩
        rw [← appendNew_nil]
        exact (Except.ok.inj whole).symm
  · intro absent
    have nothing := (Segment.directory?_eq_none_iff
      definition.segment.toSegment definition.classDef).mpr absent
    cases Except.ok.inj (read.symm.trans nothing)
    exact (Except.ok.inj listed).symm

/-! ### A marked class with overloads and repeated pairs -/

/-- The strings `LBase;`, `Lorg/junit/Test;`, `starts` and `stops`, the class
data of a class with one direct and three virtual methods, its directory, and
the set with the one annotation of the class.  All pairs of the directory have
an offset of zero but the second one for the first method. -/
def overloadingBytes : Bytes :=
  #[6, 0x4c, 0x42, 0x61, 0x73, 0x65, 0x3b, 0,
    16, 0x4c, 0x6f, 0x72, 0x67, 0x2f, 0x6a, 0x75, 0x6e, 0x69, 0x74, 0x2f,
    0x54, 0x65, 0x73, 0x74, 0x3b, 0,
    6, 0x73, 0x74, 0x61, 0x72, 0x74, 0x73, 0,
    5, 0x73, 0x74, 0x6f, 0x70, 0x73, 0,
    0, 0, 1, 3, 3, 1, 0, 0, 1, 0, 1, 1, 0, 1, 1, 0,
    105, 0, 0, 0, 0, 0, 0, 0, 4, 0, 0, 0, 0, 0, 0, 0,
    0, 0, 0, 0, 0, 0, 0, 0, 1, 0, 0, 0, 0, 0, 0, 0,
    0, 0, 0, 0, 105, 0, 0, 0, 3, 0, 0, 0, 0, 0, 0, 0,
    1, 0, 0, 0, 113, 0, 0, 0,
    1, 1, 0]

def overloadingDef : ClassDef :=
  { bareClass 0 noIndex with annotationsOffset := 57, classDataOffset := 41 }

def overloadingPart : IndexedSegment :=
  Segment.indexed
    { header := blankHeader
      strings := #[0, 8, 26, 34]
      types := #[0, 1]
      prototypes := #[]
      fields := #[]
      methods := #[
        { classType := 0, proto := 0, name := 2 },
        { classType := 0, proto := 1, name := 2 },
        { classType := 0, proto := 0, name := 3 },
        { classType := 0, proto := 1, name := 3 }]
      classDefs := #[overloadingDef]
      data := overloadingBytes }

def overloadingClass : Definition :=
  { segmentNumber := 1, segment := overloadingPart, classDef := overloadingDef }

def overloadingDirectory : Directory :=
  { classOffset := 105
    fields := []
    methods := [
      { member := 0, offset := 0 }, { member := 1, offset := 0 },
      { member := 0, offset := 105 }, { member := 3, offset := 0 }]
    parameters := [] }

/-- Both overloads make the same test, and `stops` has no pair or is not
virtual. -/
def overloadingSummary : ClassSummary :=
  { name := "Base"
    segmentNumber := 1
    classType := 0
    superclassName := none
    annotations := [markerEntry]
    tests := [{ testName := "Base#starts", annotations := [markerEntry] }]
    isConcrete := true }

theorem overloadingPart_typeDescriptor :
    overloadingPart.typeDescriptor 0 = .ok "LBase;" ∧
    overloadingPart.typeDescriptor 1 = .ok "Lorg/junit/Test;" := by
  have described (index offset length : UInt32) (start : Nat) (text : String)
      (listed : Segment.entry .types overloadingPart.types index = .ok index)
      (found : Segment.entry .strings overloadingPart.strings index =
        .ok offset)
      (counted : Reader.uleb128 overloadingBytes offset.toNat =
        .ok (length, start))
      (stands : text.toList.map plainByte ++ [0] <+:
        overloadingBytes.toList.drop start)
      (plain : IsPlain text.toList) :
      overloadingPart.typeDescriptor index = .ok text :=
    typeDescriptor_of_plain listed found counted stands plain
  exact ⟨described 0 0 6 1 _ rfl rfl rfl (by decide) (by decide),
    described 1 8 16 9 _ rfl rfl rfl (by decide) (by decide)⟩

theorem overloadingPart_className :
    overloadingPart.className 0 = .ok "Base" ∧
    overloadingPart.className 1 = .ok "org.junit.Test" := by
  obtain ⟨base, marker⟩ := overloadingPart_typeDescriptor
  exact ⟨bind_eq_ok_iff.mpr ⟨_, base, by decide⟩,
    bind_eq_ok_iff.mpr ⟨_, marker, by decide⟩⟩

private theorem overloadingPart_methodName :
    overloadingPart.methodName 0 = .ok "starts" ∧
    overloadingPart.methodName 1 = .ok "starts" := by
  have listed : Segment.entry .strings overloadingPart.strings 2 =
      .ok 26 := rfl
  have counted : Reader.uleb128 overloadingBytes 26 = .ok (6, 27) := rfl
  have read : overloadingPart.string 2 = .ok "starts" :=
    string_of_plain listed counted (by decide) (by decide)
  exact ⟨bind_eq_ok_iff.mpr ⟨_, rfl, read⟩, bind_eq_ok_iff.mpr ⟨_, rfl, read⟩⟩

private theorem overloadingPart_noMarker :
    overloadingPart.marker.get = .ok none := by
  obtain ⟨base, marker⟩ := overloadingPart_typeDescriptor
  rw [overloadingPart.marker_get]
  apply markerAmong_eq_none
  have allTypes : List.range overloadingPart.types.size = [0, 1] := rfl
  rw [allTypes]
  simp only [List.forall_mem_cons]
  exact ⟨⟨_, base, by decide⟩, ⟨_, marker, by decide⟩, by simp⟩

private theorem overloadingPart_classAnnotations :
    SetAnnotations overloadingPart 105 [markerEntry] := by
  have notInherited : overloadingPart.isInherited 1 = .ok false :=
    IndexedSegment.isInherited_of_no_marker
      (overloadingPart.marker_get ▸ overloadingPart_noMarker) 1
  have resolved : overloadingPart.resolveItem
      { visibility := 1, payload := { type := 1, elements := [] } } =
        .ok markerEntry := by
    refine bind_eq_ok_iff.mpr ⟨_, overloadingPart_className.2, ?_⟩
    refine bind_eq_ok_iff.mpr ⟨[], rfl, ?_⟩
    exact bind_eq_ok_iff.mpr ⟨false, notInherited, rfl⟩
  exact .items (by decide) rfl (.cons resolved .nil)

set_option maxRecDepth 4000 in
private theorem overloadingPart_members :
    overloadingPart.virtualMethodIndices overloadingDef = .ok [0, 1, 2] ∧
    overloadingPart.directory? overloadingDef =
      .ok (some overloadingDirectory) :=
  ⟨rfl, rfl⟩

private theorem overloadingClass_contributes :
    List.Forall₂ (Contributes [] overloadingPart overloadingDirectory "Base"
      [markerEntry]) [0, 1, 2]
      [some { testName := "Base#starts", annotations := [markerEntry] },
        some { testName := "Base#starts", annotations := [markerEntry] },
        none] := by
  have marked : Marked [] ([markerEntry] ++ []) :=
    ⟨markerEntry, List.mem_cons_self, Or.inl rfl⟩
  have firstPair : PairAnnotations overloadingPart overloadingDirectory 0 [] :=
    ⟨0, ⟨[], _, rfl, by simp⟩, .noSet rfl⟩
  have secondPair : PairAnnotations overloadingPart overloadingDirectory 1 [] :=
    ⟨0, ⟨[{ member := 0, offset := 0 }], _, rfl, by simp⟩, .noSet rfl⟩
  have noPair : NoPair overloadingDirectory 2 := by
    unfold NoPair
    decide
  obtain ⟨firstName, secondName⟩ := overloadingPart_methodName
  exact .cons (.test firstPair marked firstName)
    (.cons (.test secondPair marked secondName) (.cons (.noPair noPair) .nil))

private theorem overloadingClass_summarized :
    summarize [] overloadingClass = .ok overloadingSummary := by
  have tests : ownTests [] overloadingPart overloadingDef
      (some overloadingDirectory) "Base" [markerEntry] =
        .ok overloadingSummary.tests := by
    have each := overloadingClass_contributes.imp fun method found =>
      (markedTest?_eq_ok_iff _ _ _ _ _ method found).mpr
    refine bind_eq_ok_iff.mpr ⟨_, overloadingPart_members.1, ?_⟩
    exact bind_eq_ok_iff.mpr ⟨_, mapM_eq_ok_iff.mpr each, by decide⟩
  apply (summarize_eq_ok_iff _ _).mpr
  exact {
    name := overloadingPart_className.1
    segmentNumber := rfl
    classType := rfl
    superclassName := rfl
    isConcrete := by decide
    contents := ⟨some overloadingDirectory, overloadingPart_members.2,
      (annotationsAt_eq_ok_iff _ _ _).mpr overloadingPart_classAnnotations,
      tests⟩ }

/-- The class with overloads has one test, and where class data would stand
makes no difference for a class without a directory. -/
theorem overloadingClass_own_tests :
    summarize [] overloadingClass = .ok overloadingSummary ∧
    (∃ directory members found,
      overloadingPart.directory? overloadingDef = .ok (some directory) ∧
      SetAnnotations overloadingPart directory.classOffset [markerEntry] ∧
      overloadingPart.classData overloadingDef = .ok members ∧
      List.Forall₂ (Contributes [] overloadingPart directory "Base"
        [markerEntry]) members.virtualMethodIndices found ∧
      overloadingSummary.tests = (found.filterMap id).eraseDups) ∧
    summarize [] (withClassDataAt derivedClass 200) =
      summarize [] derivedClass := by
  obtain ⟨_, selected, _⟩ := (own_tests_exact [] overloadingClass).1
    overloadingSummary overloadingClass_summarized
  exact ⟨overloadingClass_summarized, selected (by decide),
    (own_tests_exact [] derivedClass).2 rfl 200⟩

end JUnit4
end DexCensus
