/-
Tests that are found twice.

No search lists a test twice for one class, but their results are only joined
and sorted.  A test of a JUnit3 class is found by the JUnit4 search too if a
class above has a marked method of the same name and the class overrides it
without annotations.  And two classes have a test in common if the name of one
goes on behind the name of the other with a separator, so that class and
method are divided differently in the same test name.

There is no third way.  The package at the end has repeats of both kinds.
-/

import DexCensus.Proofs.Arrangement.Discovery
import DexCensus.Proofs.JUnit4.Repetition

namespace DexCensus

open Dex

namespace Discovery

open JUnit4

variable {markers : List String}

/-- The two ways in which a test is found twice. -/
inductive FoundTwice (junit3 : List TestMethod) (table : ClassTable)
    (acyclic : table.Acyclic) (test : TestMethod) : Prop
  | byBothSearches :
      test ∈ junit3 → test ∈ concreteTests table acyclic →
      test.annotations = [] → FoundTwice junit3 table acyclic test
  | forTwoClasses {left right : Fin table.size} :
      left ≠ right →
      (table.get left).isConcrete = true →
      (table.get right).isConcrete = true →
      test ∈ complete table acyclic left →
      test ∈ complete table acyclic right →
      (table.get left).name.toList ++ [TestName.separator] <+:
        (table.get right).name.toList →
      FoundTwice junit3 table acyclic test

private theorem two_le_count_merged_iff {segments : List IndexedSegment}
    {junit3 : List TestMethod} {table : ClassTable} (acyclic : table.Acyclic)
    (found : JUnit3.findTests segments = .ok junit3)
    (represents : Represents markers table (classDefinitions segments))
    (test : TestMethod) :
    2 ≤ (merged junit3 (concreteTests table acyclic)).count test ↔
      FoundTwice junit3 table acyclic test := by
  obtain ⟨once, mem_iff⟩ := JUnit3.mem_findTests_iff found
  rw [merged, (TestMethod.sortedByName_perm _).count_eq,
    two_le_count_append_iff once,
    represents.two_le_count_concreteTests_iff acyclic]
  constructor
  · intro twice
    rcases twice with ⟨byName, byMarker⟩ |
      ⟨left, right, apart, leftConcrete, rightConcrete, inLeft, inRight⟩
    · exact .byBothSearches byName byMarker ((mem_iff test).mp byName).1
    · rcases represents.names_of_common_test acyclic apart inLeft inRight with
        longer | longer
      · exact .forTwoClasses apart leftConcrete rightConcrete inLeft inRight
          longer
      · exact .forTwoClasses apart.symm rightConcrete leftConcrete inRight
          inLeft longer
  · intro twice
    cases twice with
    | byBothSearches byName byMarker _ => exact Or.inl ⟨byName, byMarker⟩
    | forTwoClasses apart leftConcrete rightConcrete inLeft inRight _ =>
        exact Or.inr ⟨_, _, apart, leftConcrete, rightConcrete, inLeft,
          inRight⟩

/-- Neither search lists a test twice, nor does a class.  What stands twice in
the result is without annotations and was found by both searches, or it was
found for two concrete classes whose names differ in where a separator of the
test name falls. -/
theorem findMethods_repetitions {buffers : List Bytes}
    {tests : List TestMethod}
    (found : findMethods markers buffers = .ok tests) :
    ∃ segments junit3 survey, ∃ acyclic : survey.table.Acyclic,
      parseSegments buffers = .ok segments ∧
      JUnit3.findTests segments = .ok junit3 ∧
      Survey.ofSegments markers segments = (survey, none) ∧
      tests = merged junit3 (concreteTests survey.table acyclic) ∧
      junit3.Nodup ∧
      (∀ position, (complete survey.table acyclic position).Nodup) ∧
      ∀ test, 2 ≤ tests.count test ↔
        FoundTwice junit3 survey.table acyclic test := by
  unfold findMethods ofBuffers at found
  cases parsed : parseSegments buffers with
  | error error =>
      rw [parsed] at found
      cases found
  | ok segments =>
      rw [parsed] at found
      simp only [tests_ofSegments] at found
      obtain ⟨junit3, byName, rest⟩ := bind_eq_ok_iff.mp found
      obtain ⟨junit4, byMarker, whole⟩ := bind_eq_ok_iff.mp rest
      obtain ⟨survey, surveyed, acyclic, rfl⟩ :=
        (findTests_eq_ok_iff segments junit4).mp byMarker
      have represents := Survey.represents_of_ofSegments surveyed
      cases whole
      exact ⟨segments, junit3, survey, acyclic, rfl, byName, surveyed, rfl,
        (JUnit3.mem_findTests_iff byName).1,
        represents.nodup_complete acyclic,
        two_le_count_merged_iff acyclic byName represents⟩

/-! ### A marked class, one that overrides a method, and a namesake -/

/-- The class `P` extends a test case class of the platform and has the
methods `testX` and `a#testX`, both marked with `M`.  Its subclass `C`
overrides `testX`, and its subclass `C#a` is empty. -/
def overridingBytes : Bytes :=
  #[0x64, 0x65, 0x78, 0x0a, 0x30, 0x33, 0x35, 0,
    0, 0, 0, 0,
    0, 0, 0, 0, 0, 0, 0, 0, 0, 0, 0, 0, 0, 0, 0, 0, 0, 0, 0, 0,
    0, 0, 0, 0, 0x70, 0, 0, 0, 0x78, 0x56, 0x34, 0x12,
    0, 0, 0, 0, 0, 0, 0, 0, 0, 0, 0, 0,
    7, 0, 0, 0, 252, 0, 0, 0,
    5, 0, 0, 0, 232, 0, 0, 0,
    0, 0, 0, 0, 0, 0, 0, 0,
    0, 0, 0, 0, 0, 0, 0, 0,
    3, 0, 0, 0, 208, 0, 0, 0,
    3, 0, 0, 0, 112, 0, 0, 0,
    0, 0, 0, 0, 0, 0, 0, 0,
    1, 0, 0, 0, 1, 0, 0, 0, 0, 0, 0, 0, 0, 0, 0, 0,
    0xff, 0xff, 0xff, 0xff, 118, 1, 0, 0, 90, 1, 0, 0, 0, 0, 0, 0,
    2, 0, 0, 0, 1, 0, 0, 0, 1, 0, 0, 0, 0, 0, 0, 0,
    0xff, 0xff, 0xff, 0xff, 0, 0, 0, 0, 100, 1, 0, 0, 0, 0, 0, 0,
    3, 0, 0, 0, 1, 0, 0, 0, 1, 0, 0, 0, 0, 0, 0, 0,
    0xff, 0xff, 0xff, 0xff, 0, 0, 0, 0, 0, 0, 0, 0, 0, 0, 0, 0,
    1, 0, 0, 0, 5, 0, 0, 0, 1, 0, 0, 0, 6, 0, 0, 0, 2, 0, 0, 0, 5, 0, 0, 0,
    0, 0, 0, 0, 1, 0, 0, 0, 2, 0, 0, 0, 3, 0, 0, 0, 4, 0, 0, 0,
    24, 1, 0, 0, 52, 1, 0, 0, 57, 1, 0, 0, 62, 1, 0, 0, 69, 1, 0, 0, 74, 1, 0,
    0, 81, 1, 0, 0,
    26, 0x4c, 0x6a, 0x75, 0x6e, 0x69, 0x74, 0x2f, 0x66, 0x72, 0x61, 0x6d,
    0x65, 0x77, 0x6f, 0x72, 0x6b, 0x2f, 0x54, 0x65, 0x73, 0x74, 0x43, 0x61,
    0x73, 0x65, 0x3b, 0,
    3, 0x4c, 0x50, 0x3b, 0,
    3, 0x4c, 0x43, 0x3b, 0,
    5, 0x4c, 0x43, 0x23, 0x61, 0x3b, 0,
    3, 0x4c, 0x4d, 0x3b, 0,
    5, 0x74, 0x65, 0x73, 0x74, 0x58, 0,
    7, 0x61, 0x23, 0x74, 0x65, 0x73, 0x74, 0x58, 0,
    0, 0, 0, 2, 0, 1, 0, 1, 1, 0,
    0, 0, 0, 1, 2, 1, 0,
    1, 4, 0,
    1, 0, 0, 0, 107, 1, 0, 0,
    0, 0, 0, 0, 0, 0, 0, 0, 2, 0, 0, 0, 0, 0, 0, 0,
    0, 0, 0, 0, 110, 1, 0, 0, 1, 0, 0, 0, 110, 1, 0, 0]

def markedParent : ClassDef :=
  { bareClass 1 0 with annotationsOffset := 374, classDataOffset := 346 }

def overridingChild : ClassDef :=
  { bareClass 2 1 with classDataOffset := 356 }

def overridingSegment : Segment :=
  { header := { blankHeader with
      stringIds := { size := 7, offset := 252 }
      typeIds := { size := 5, offset := 232 }
      methodIds := { size := 3, offset := 208 }
      classDefs := { size := 3, offset := 112 } }
    strings := #[280, 308, 313, 318, 325, 330, 337]
    types := #[0, 1, 2, 3, 4]
    prototypes := #[]
    fields := #[]
    methods := #[
      { classType := 1, proto := 0, name := 5 },
      { classType := 1, proto := 0, name := 6 },
      { classType := 2, proto := 0, name := 5 }]
    classDefs := #[markedParent, overridingChild, bareClass 3 1]
    data := overridingBytes }

set_option maxRecDepth 8000 in
private theorem parse_overridingBytes :
    Segment.parse overridingBytes = .ok overridingSegment := by
  rfl

def overridingPart : IndexedSegment :=
  overridingSegment.indexed

def parentClass : Definition :=
  { segmentNumber := 1, segment := overridingPart, classDef := markedParent }

def childClass : Definition :=
  { segmentNumber := 1, segment := overridingPart, classDef := overridingChild }

def namesakeClass : Definition :=
  { segmentNumber := 1, segment := overridingPart, classDef := bareClass 3 1 }

theorem overriding_definitions :
    Definition.ofSegments [overridingPart] =
        [parentClass, childClass, namesakeClass] ∧
      classDefinitions [overridingPart] =
        [parentClass, childClass, namesakeClass] :=
  ⟨rfl, rfl⟩

set_option maxRecDepth 8000 in
theorem overriding_typeDescriptor :
    overridingPart.typeDescriptor 0 = .ok "Ljunit/framework/TestCase;" ∧
    overridingPart.typeDescriptor 1 = .ok "LP;" ∧
    overridingPart.typeDescriptor 2 = .ok "LC;" ∧
    overridingPart.typeDescriptor 3 = .ok "LC#a;" ∧
    overridingPart.typeDescriptor 4 = .ok "LM;" := by
  have described (index offset length : UInt32) (start : Nat) (text : String)
      (listed : Segment.entry .types overridingSegment.types index = .ok index)
      (found : Segment.entry .strings overridingSegment.strings index =
        .ok offset)
      (counted : Reader.uleb128 overridingBytes offset.toNat =
        .ok (length, start))
      (stands : text.toList.map plainByte ++ [0] <+:
        overridingBytes.toList.drop start)
      (plain : IsPlain text.toList) :
      overridingSegment.typeDescriptor index = .ok text :=
    typeDescriptor_of_plain listed found counted stands plain
  exact ⟨described 0 280 26 281 _ rfl rfl rfl (by decide) (by decide),
    described 1 308 3 309 _ rfl rfl rfl (by decide) (by decide),
    described 2 313 3 314 _ rfl rfl rfl (by decide) (by decide),
    described 3 318 5 319 _ rfl rfl rfl (by decide) (by decide),
    described 4 325 3 326 _ rfl rfl rfl (by decide) (by decide)⟩

set_option maxRecDepth 8000 in
theorem overriding_methodName :
    overridingPart.methodName 0 = .ok "testX" ∧
    overridingPart.methodName 1 = .ok "a#testX" ∧
    overridingPart.methodName 2 = .ok "testX" := by
  have own : overridingSegment.string 5 = .ok "testX" := by
    have listed : Segment.entry .strings overridingSegment.strings 5 =
        .ok 330 := rfl
    have counted : Reader.uleb128 overridingBytes 330 = .ok (5, 331) := rfl
    exact string_of_plain listed counted (by decide) (by decide)
  have divided : overridingSegment.string 6 = .ok "a#testX" := by
    have listed : Segment.entry .strings overridingSegment.strings 6 =
        .ok 337 := rfl
    have counted : Reader.uleb128 overridingBytes 337 = .ok (7, 338) := rfl
    exact string_of_plain listed counted (by decide) (by decide)
  exact ⟨bind_eq_ok_iff.mpr ⟨_, rfl, own⟩,
    bind_eq_ok_iff.mpr ⟨_, rfl, divided⟩,
    bind_eq_ok_iff.mpr ⟨_, rfl, own⟩⟩

private theorem parentClass_superclass :
    JUnit3.HasSuperclass parentClass "Ljunit/framework/TestCase;" :=
  bind_eq_ok_iff.mpr ⟨_, overriding_typeDescriptor.1, rfl⟩

private theorem childClass_superclass : JUnit3.HasSuperclass childClass "LP;" :=
  bind_eq_ok_iff.mpr ⟨_, overriding_typeDescriptor.2.1, rfl⟩

private theorem namesakeClass_superclass :
    JUnit3.HasSuperclass namesakeClass "LP;" :=
  bind_eq_ok_iff.mpr ⟨_, overriding_typeDescriptor.2.1, rfl⟩

theorem overriding_className :
    overridingPart.className 0 = .ok "junit.framework.TestCase" ∧
    overridingPart.className 1 = .ok "P" ∧
    overridingPart.className 2 = .ok "C" ∧
    overridingPart.className 3 = .ok "C#a" ∧
    overridingPart.className 4 = .ok "M" := by
  obtain ⟨platform, parent, child, namesake, marker⟩ :=
    overriding_typeDescriptor
  exact ⟨bind_eq_ok_iff.mpr ⟨_, platform, by decide⟩,
    bind_eq_ok_iff.mpr ⟨_, parent, by decide⟩,
    bind_eq_ok_iff.mpr ⟨_, child, by decide⟩,
    bind_eq_ok_iff.mpr ⟨_, namesake, by decide⟩,
    bind_eq_ok_iff.mpr ⟨_, marker, by decide⟩⟩

set_option maxRecDepth 8000 in
theorem overriding_members :
    overridingPart.virtualMethodIndices markedParent = .ok [0, 1] ∧
    overridingPart.virtualMethodIndices overridingChild = .ok [2] ∧
    overridingPart.virtualMethodIndices (bareClass 3 1) = .ok [] :=
  ⟨rfl, rfl, rfl⟩

/-- The test of `C` that overrides the one of `P`. -/
def overriddenTest : TestMethod :=
  { testName := "C#testX", annotations := [] }

private theorem testsOf_parentClass : JUnit3.testsOf parentClass =
    .ok [{ testName := "P#testX", annotations := [] }] := by
  obtain ⟨first, second, _⟩ := overriding_methodName
  have names : [(0 : UInt32), 1].mapM overridingPart.methodName =
      .ok ["testX", "a#testX"] :=
    mapM_eq_ok_iff.mpr (List.Forall₂.cons first
      (List.Forall₂.cons second List.Forall₂.nil))
  refine bind_eq_ok_iff.mpr ⟨"P", overriding_className.2.1, ?_⟩
  refine bind_eq_ok_iff.mpr ⟨_, overriding_members.1, ?_⟩
  exact bind_eq_ok_iff.mpr ⟨_, names, by decide⟩

private theorem testsOf_childClass :
    JUnit3.testsOf childClass = .ok [overriddenTest] := by
  obtain ⟨_, _, third⟩ := overriding_methodName
  have names : [(2 : UInt32)].mapM overridingPart.methodName =
      .ok ["testX"] :=
    mapM_eq_ok_iff.mpr (List.Forall₂.cons third List.Forall₂.nil)
  refine bind_eq_ok_iff.mpr ⟨"C", overriding_className.2.2.1, ?_⟩
  refine bind_eq_ok_iff.mpr ⟨_, overriding_members.2.1, ?_⟩
  exact bind_eq_ok_iff.mpr ⟨_, names, by decide⟩

private theorem testsOf_namesakeClass :
    JUnit3.testsOf namesakeClass = .ok [] := by
  refine bind_eq_ok_iff.mpr ⟨"C#a", overriding_className.2.2.2.1, ?_⟩
  refine bind_eq_ok_iff.mpr ⟨_, overriding_members.2.2, ?_⟩
  exact bind_eq_ok_iff.mpr ⟨[], rfl, rfl⟩

private theorem overriding_junit3 : ∃ junit3,
    JUnit3.findTests [overridingPart] = .ok junit3 ∧
      overriddenTest ∈ junit3 := by
  have parentIn : parentClass ∈ Definition.ofSegments [overridingPart] := by
    simp [overriding_definitions.1]
  have childIn : childClass ∈ Definition.ofSegments [overridingPart] := by
    simp [overriding_definitions.1]
  have readable :
      ¬ JUnit3.Unreadable (Definition.ofSegments [overridingPart]) := by
    rw [overriding_definitions.1]
    rintro (⟨definition, member, fault, failed⟩ |
      ⟨definition, testClass, broken⟩)
    · simp only [List.mem_cons, List.not_mem_nil, or_false] at member
      rcases member with rfl | rfl | rfl
      · cases failed.symm.trans parentClass_superclass
      · cases failed.symm.trans childClass_superclass
      · cases failed.symm.trans namesakeClass_superclass
    · have member := testClass.mem
      simp only [List.mem_cons, List.not_mem_nil, or_false] at member
      rcases member with rfl | rfl | rfl
      · exact JUnit3.not_broken testsOf_parentClass broken
      · exact JUnit3.not_broken testsOf_childClass broken
      · exact JUnit3.not_broken testsOf_namesakeClass broken
  obtain ⟨junit3, found⟩ := JUnit3.findTests_of_readable readable
  have parentTests : JUnit3.TestClass
      (Definition.ofSegments [overridingPart]) parentClass :=
    .seed parentIn parentClass_superclass (by simp [JUnit3.platformBases])
  have childTests : JUnit3.TestClass
      (Definition.ofSegments [overridingPart]) childClass :=
    .step childIn childClass_superclass parentTests
      overriding_typeDescriptor.2.1
  have hasTest := (JUnit3.mem_testsOf testsOf_childClass overriddenTest).mp
    List.mem_cons_self
  exact ⟨junit3, found, ((JUnit3.mem_findTests_iff found).2 _).mpr
    ⟨hasTest.1, childClass, childTests, hasTest.2⟩⟩

def markEntry : TestAnnotation :=
  { name := "M", values := [], inherited := false }

def parentDirectory : Directory :=
  { classOffset := 0
    fields := []
    methods := [{ member := 0, offset := 366 }, { member := 1, offset := 366 }]
    parameters := [] }

def parentSummary : ClassSummary :=
  { name := "P"
    segmentNumber := 1
    classType := 1
    superclassName := some "junit.framework.TestCase"
    annotations := []
    tests := [
      { testName := "P#testX", annotations := [markEntry] },
      { testName := "P#a#testX", annotations := [markEntry] }]
    isConcrete := true }

def childSummary (name : String) (type : UInt32) : ClassSummary :=
  { name := name
    segmentNumber := 1
    classType := type
    superclassName := some "P"
    annotations := []
    tests := []
    isConcrete := true }

set_option maxRecDepth 8000 in
theorem parentClass_directory :
    overridingPart.directory? markedParent = .ok (some parentDirectory) ∧
    itemsAt overridingBytes 366 =
      .ok [{ visibility := 1, payload := { type := 4, elements := [] } }] :=
  ⟨rfl, rfl⟩

private theorem overriding_noMarker : overridingPart.marker.get = .ok none := by
  obtain ⟨platform, parent, child, namesake, marker⟩ :=
    overriding_typeDescriptor
  rw [overridingPart.marker_get]
  apply markerAmong_eq_none
  have allTypes : List.range overridingPart.types.size = [0, 1, 2, 3, 4] := rfl
  rw [allTypes]
  simp only [List.forall_mem_cons]
  exact ⟨⟨_, platform, by decide⟩, ⟨_, parent, by decide⟩,
    ⟨_, child, by decide⟩, ⟨_, namesake, by decide⟩,
    ⟨_, marker, by decide⟩, by simp⟩

private theorem overriding_annotationsAt :
    overridingPart.annotationsAt 366 = .ok [markEntry] := by
  have notInherited : overridingPart.isInherited 4 = .ok false :=
    bind_eq_ok_iff.mpr ⟨none, overriding_noMarker, rfl⟩
  have resolved : overridingPart.resolveItem
      { visibility := 1, payload := { type := 4, elements := [] } } =
        .ok markEntry := by
    refine bind_eq_ok_iff.mpr ⟨_, overriding_className.2.2.2.2, ?_⟩
    refine bind_eq_ok_iff.mpr ⟨[], rfl, ?_⟩
    exact bind_eq_ok_iff.mpr ⟨false, notInherited, rfl⟩
  refine bind_eq_ok_iff.mpr ⟨_, parentClass_directory.2, ?_⟩
  exact mapM_eq_ok_iff.mpr (List.Forall₂.cons resolved List.Forall₂.nil)

theorem overriding_superclassNames :
    HasSuperclassName parentClass "junit.framework.TestCase" ∧
    HasSuperclassName childClass "P" ∧
    HasSuperclassName namesakeClass "P" := by
  obtain ⟨platform, parent, _⟩ := overriding_className
  exact ⟨hasSuperclassName_of_type 0 rfl platform,
    hasSuperclassName_of_type 1 rfl parent,
    hasSuperclassName_of_type 1 rfl parent⟩

theorem parentClass_summarizes :
    Summarizes ["M"] parentClass parentSummary := by
  have marked (method : UInt32) (methodName : String)
      (listed : parentDirectory.methodOffset? method = some 366)
      (inDirectory : parentDirectory.hasMethod method = true)
      (named : overridingPart.methodName method = .ok methodName) :
      markedTest? ["M"] overridingPart parentDirectory "P" [] method =
        .ok (some { testName := TestName.ofParts "P" methodName
                    annotations := [markEntry] }) := by
    refine (markedTest?_eq_some_iff _ _ _ _ _ _).mpr ⟨inDirectory,
      [markEntry], methodName, ?_, ⟨markEntry, by simp, by decide⟩, named, rfl⟩
    simp only [IndexedSegment.methodAnnotations, listed]
    exact overriding_annotationsAt
  obtain ⟨first, second, _⟩ := overriding_methodName
  have found := mapM_eq_ok_iff.mpr (List.Forall₂.cons
    (marked 0 "testX" (by decide) (by decide) first) (List.Forall₂.cons
      (marked 1 "a#testX" (by decide) (by decide) second) List.Forall₂.nil))
  have tests : ownTests ["M"] overridingPart markedParent
      (some parentDirectory) "P" [] = .ok parentSummary.tests := by
    refine bind_eq_ok_iff.mpr ⟨_, overriding_members.1, ?_⟩
    exact bind_eq_ok_iff.mpr ⟨_, found, congrArg Except.ok (by decide)⟩
  exact {
    name := overriding_className.2.1
    segmentNumber := rfl
    classType := rfl
    superclassName := overriding_superclassNames.1
    isConcrete := by decide
    contents := ⟨some parentDirectory, parentClass_directory.1, rfl, tests⟩ }

theorem childClass_summarizes :
    Summarizes ["M"] childClass (childSummary "C" 2) :=
  summarizes_of_no_directory overriding_className.2.2.1
    overriding_superclassNames.2.1 rfl

theorem namesakeClass_summarizes :
    Summarizes ["M"] namesakeClass (childSummary "C#a" 3) :=
  summarizes_of_no_directory overriding_className.2.2.2.1
    overriding_superclassNames.2.2 rfl

private theorem overriding_distinct :
    DistinctNames (classDefinitions [overridingPart]) := by
  have parentNamed := parentClass_summarizes.name
  have childNamed := childClass_summarizes.name
  have namesakeNamed := namesakeClass_summarizes.name
  rw [overriding_definitions.2, DistinctNames]
  refine List.pairwise_cons.mpr ⟨?_, List.pairwise_pair.mpr
    (childNamed.apart namesakeNamed (by decide))⟩
  simp only [List.forall_mem_cons]
  exact ⟨parentNamed.apart childNamed (by decide),
    parentNamed.apart namesakeNamed (by decide), by simp⟩

private theorem overriding_edge {parent child : Definition}
    (edge : KeptParent (classDefinitions [overridingPart]) parent child) :
    HasName parent "P" ∧ ¬ HasName child "P" := by
  obtain ⟨name, parentNamed, childNamed⟩ := edge.named
  have parentMember := edge.parentKept.mem
  have childMember := edge.childKept.mem
  rw [overriding_definitions.2] at parentMember childMember
  simp only [List.mem_cons, List.not_mem_nil, or_false]
    at parentMember childMember
  obtain ⟨platform, ofChild, ofNamesake⟩ := overriding_superclassNames
  have parentName := parentClass_summarizes.name
  rcases childMember with rfl | rfl | rfl
  · rw [childNamed.unique platform] at parentNamed
    rcases parentMember with rfl | rfl | rfl
    · exact absurd (parentNamed.unique parentName) (by decide)
    · exact absurd (parentNamed.unique childClass_summarizes.name) (by decide)
    · exact absurd (parentNamed.unique namesakeClass_summarizes.name)
        (by decide)
  · rw [childNamed.unique ofChild] at parentNamed
    exact ⟨parentNamed, fun clash => absurd
      (clash.unique childClass_summarizes.name) (by decide)⟩
  · rw [childNamed.unique ofNamesake] at parentNamed
    exact ⟨parentNamed, fun clash => absurd
      (clash.unique namesakeClass_summarizes.name) (by decide)⟩

private theorem overriding_surveyed : ∃ survey, survey.table.Acyclic ∧
    Survey.ofSegments ["M"] [overridingPart] = (survey, none) := by
  have summarized : ∀ definition ∈ classDefinitions [overridingPart],
      ∃ summary, summarize ["M"] definition = .ok summary := by
    rw [overriding_definitions.2]
    simp only [List.forall_mem_cons]
    exact ⟨⟨_, (summarize_eq_ok_iff _ _).mpr parentClass_summarizes⟩,
      ⟨_, (summarize_eq_ok_iff _ _).mpr childClass_summarizes⟩,
      ⟨_, (summarize_eq_ok_iff _ _).mpr namesakeClass_summarizes⟩, by simp⟩
  obtain ⟨tests, found⟩ := findTests_of_one_generation summarized
    fun _ _ _ first second =>
      (overriding_edge first).2 (overriding_edge second).1
  obtain ⟨survey, surveyed, acyclic, _⟩ :=
    (findTests_eq_ok_iff _ _).mp found
  exact ⟨survey, acyclic, surveyed⟩

private theorem overriding_places {table : ClassTable}
    (represents : Represents ["M"] table (classDefinitions [overridingPart])) :
    ∃ parent child namesake, table.get parent = parentSummary ∧
      table.get child = childSummary "C" 2 ∧
      table.get namesake = childSummary "C#a" 3 := by
  have kept : ∀ definition ∈ [parentClass, childClass, namesakeClass],
      Kept (classDefinitions [overridingPart]) definition := by
    intro definition member
    exact overriding_distinct.kept (overriding_definitions.2 ▸ member)
  obtain ⟨parent, parentIs⟩ := represents.exists_get_eq
    (kept parentClass (by simp)) parentClass_summarizes
  obtain ⟨child, childIs⟩ := represents.exists_get_eq
    (kept childClass (by simp)) childClass_summarizes
  obtain ⟨namesake, namesakeIs⟩ := represents.exists_get_eq
    (kept namesakeClass (by simp)) namesakeClass_summarizes
  exact ⟨parent, child, namesake, parentIs, childIs, namesakeIs⟩

private theorem overriding_inherited {table : ClassTable}
    (acyclic : table.Acyclic) {parent position : Fin table.size}
    {name : String} {classType : UInt32} {test : TestMethod}
    (parentIs : table.get parent = parentSummary)
    (childIs : table.get position = childSummary name classType)
    (own : test ∈ parentSummary.tests) :
    rehome (childSummary name classType) test ∈
      complete table acyclic position := by
  have edge : table.IsParent parent position := by
    rw [ClassTable.IsParent, childIs, parentIs]
    rfl
  rw [← childIs]
  exact rehome_mem_complete acyclic edge
    (mem_complete_of_own acyclic (parentIs ▸ own))

/-- The test of `C#a` that `C` has too, under a longer method name. -/
def dividedTest : TestMethod :=
  { testName := "C#a#testX", annotations := [] }

private theorem overriding_junit4 : ∃ survey, ∃ acyclic : survey.table.Acyclic,
    Survey.ofSegments ["M"] [overridingPart] = (survey, none) ∧
      overriddenTest ∈ concreteTests survey.table acyclic ∧
      2 ≤ (concreteTests survey.table acyclic).count dividedTest := by
  obtain ⟨survey, acyclic, surveyed⟩ := overriding_surveyed
  have represents := Survey.represents_of_ofSegments surveyed
  obtain ⟨parent, child, namesake, parentIs, childIs, namesakeIs⟩ :=
    overriding_places represents
  have overridden : overriddenTest ∈ complete survey.table acyclic child :=
    overriding_inherited acyclic parentIs childIs List.mem_cons_self
  have divided : dividedTest ∈ complete survey.table acyclic child :=
    overriding_inherited acyclic parentIs childIs
      (List.mem_cons_of_mem _ List.mem_cons_self)
  have dividedToo : dividedTest ∈ complete survey.table acyclic namesake :=
    overriding_inherited acyclic parentIs namesakeIs
      List.mem_cons_self
  have apart : child ≠ namesake := by
    rintro rfl
    exact absurd (congrArg ClassSummary.name (childIs.symm.trans namesakeIs))
      (by decide)
  refine ⟨survey, acyclic, surveyed, ?_, ?_⟩
  · exact (mem_concreteTests_iff acyclic _).mpr
      ⟨child, by rw [childIs]; rfl, overridden⟩
  · exact (represents.two_le_count_concreteTests_iff acyclic _).mpr
      ⟨child, namesake, apart, by rw [childIs]; rfl, by rw [namesakeIs]; rfl,
        divided, dividedToo⟩

theorem overriding_found : ∃ tests,
    (ofSegments ["M"] [overridingPart]).tests = .ok tests ∧
      2 ≤ tests.count overriddenTest ∧ 2 ≤ tests.count dividedTest := by
  obtain ⟨junit3, byName, inJUnit3⟩ := overriding_junit3
  obtain ⟨survey, acyclic, surveyed, inJUnit4, twice⟩ := overriding_junit4
  have byMarker : JUnit4.findTests ["M"] [overridingPart] =
      .ok (concreteTests survey.table acyclic) :=
    (findTests_eq_ok_iff _ _).mpr ⟨survey, surveyed, acyclic, rfl⟩
  have once := (JUnit3.mem_findTests_iff byName).1
  refine ⟨merged junit3 (concreteTests survey.table acyclic), ?_, ?_, ?_⟩
  · rw [tests_ofSegments, byName, byMarker]
    rfl
  · rw [merged, (TestMethod.sortedByName_perm _).count_eq]
    exact (two_le_count_append_iff once _).mpr (Or.inl ⟨inJUnit3, inJUnit4⟩)
  · rw [merged, (TestMethod.sortedByName_perm _).count_eq]
    exact (two_le_count_append_iff once _).mpr (Or.inr twice)

theorem findMethods_overridingBytes : ∃ tests,
    findMethods ["M"] [overridingBytes] = .ok tests ∧
      2 ≤ tests.count overriddenTest ∧ 2 ≤ tests.count dividedTest := by
  have parsed : parseSegments [overridingBytes] = .ok [overridingPart] := by
    have parsedHere : IndexedSegment.parse overridingBytes =
        .ok overridingPart :=
      bind_eq_ok_iff.mpr ⟨overridingSegment, parse_overridingBytes, rfl⟩
    rw [parseSegments, parseSegmentsFrom, parsedHere]
    rfl
  obtain ⟨tests, found, twice⟩ := overriding_found
  refine ⟨tests, ?_, twice⟩
  rw [findMethods, ofBuffers, parsed]
  exact found

/-- The result has repeats of both kinds: the overridden test is found by name
and by marker, and the divided one for two classes. -/
theorem overridingBytes_found_twice : ∃ tests,
    findMethods ["M"] [overridingBytes] = .ok tests ∧ ¬ tests.Nodup ∧
      2 ≤ tests.count { testName := "C#testX", annotations := [] } ∧
      2 ≤ tests.count { testName := "C#a#testX", annotations := [] } := by
  obtain ⟨tests, found, overridden, divided⟩ := findMethods_overridingBytes
  refine ⟨tests, found, ?_, overridden, divided⟩
  intro once
  have atMostOnce := List.nodup_iff_count_le_one.mp once overriddenTest
  omega

theorem overridingBytes_repetitions :
    ∃ tests segments junit3 survey, ∃ acyclic : survey.table.Acyclic,
      findMethods ["M"] [overridingBytes] = .ok tests ∧
      parseSegments [overridingBytes] = .ok segments ∧
      JUnit3.findTests segments = .ok junit3 ∧
      Survey.ofSegments ["M"] segments = (survey, none) ∧
      FoundTwice junit3 survey.table acyclic overriddenTest ∧
      FoundTwice junit3 survey.table acyclic dividedTest := by
  obtain ⟨tests, found, overridden, divided⟩ := findMethods_overridingBytes
  obtain ⟨segments, junit3, survey, acyclic, parsed, listed, surveyed, _, _, _,
    twice⟩ := findMethods_repetitions found
  exact ⟨tests, segments, junit3, survey, acyclic, found, parsed, listed,
    surveyed, (twice _).mp overridden, (twice _).mp divided⟩

end Discovery
end DexCensus
