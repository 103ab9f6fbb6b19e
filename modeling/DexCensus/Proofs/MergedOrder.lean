/-
In which order tests are told.

The result has the JUnit3 tests and the JUnit4 tests in ascending order of the
UTF-8 of their names.  Of each name there is at most one JUnit3 test, without
annotations, and it stands in front of the JUnit4 tests of that name, which
stand as they were found.  The names by themselves ascend without repeats, and
the text report has one line for each.
-/

import DexCensus.Proofs.Arrangement.Discovery
import DexCensus.Proofs.JUnit4.DiscoveryOrder
import DexCensus.Proofs.NameOrder
import DexCensus.Proofs.Text.Utf8Order
import DexCensus.Report

namespace DexCensus

open Dex

private theorem eq_nil_or_singleton_of_nodup {α : Type} {only : α}
    {elements : List α}
    (once : elements.Nodup) (same : ∀ element ∈ elements, element = only) :
    elements = [] ∨ elements = [only] := by
  cases elements with
  | nil => exact Or.inl rfl
  | cons first rest =>
      obtain ⟨first_eq, restSame⟩ := List.forall_mem_cons.mp same
      cases rest with
      | nil => exact Or.inr (congrArg (fun element => [element]) first_eq)
      | cons second rest =>
          have second_eq := restSame second List.mem_cons_self
          exact ((List.nodup_cons.mp once).1
            (by simp [first_eq, second_eq])).elim

private theorem JUnit3.ofName_findTests {segments : List IndexedSegment}
    {tests : List TestMethod} (found : JUnit3.findTests segments = .ok tests)
    (name : String) :
    TestMethod.ofName name tests = [] ∨
      TestMethod.ofName name tests =
        [{ testName := name, annotations := [] }] := by
  obtain ⟨once, mem_iff⟩ := JUnit3.mem_findTests_iff found
  apply eq_nil_or_singleton_of_nodup (once.filter _)
  intro test member
  obtain ⟨inTests, named⟩ := (TestMethod.mem_ofName_iff _ _ _).mp member
  have bare := ((mem_iff test).mp inTests).1
  cases test
  cases named
  cases bare
  rfl

private theorem Report.toList_render_text (tests : List TestMethod) :
    (Report.render .text tests).toList =
      (TestMethod.names tests).flatMap fun name => name.toList ++ ['\n'] := by
  simp [Report.render, Serializer.render, Report.lines, String.toList_join,
    List.flatMap_map]

namespace Discovery

variable {markers : List String}

/-- The result is sorted and stable.  A test of a name may come first from the
JUnit3 search; all others are those of the JUnit4 search in their order, which
is that of the class they belong to, then of its superclass, and so on, if no
class name has a separator.  The names of the result, in the text report one
to a line, ascend strictly. -/
theorem findMethods_in_order {buffers : List Bytes} {tests : List TestMethod}
    (found : findMethods markers buffers = .ok tests) :
    ∃ segments junit3 junit4,
      parseSegments buffers = .ok segments ∧
      JUnit3.findTests segments = .ok junit3 ∧
      JUnit4.findTests markers segments = .ok junit4 ∧
      tests.Perm (junit3 ++ junit4) ∧
      (tests.Pairwise fun earlier later =>
        utf8Bytes earlier.testName ≤ utf8Bytes later.testName) ∧
      (∀ name,
        TestMethod.ofName name tests =
          TestMethod.ofName name junit3 ++ TestMethod.ofName name junit4 ∧
        (TestMethod.ofName name junit3 = [] ∨
          TestMethod.ofName name junit3 =
            [{ testName := name, annotations := [] }])) ∧
      (JUnit4.PlainNames (JUnit4.classDefinitions segments) →
        ∀ test ∈ junit4, ∃ height line classes methodName,
          JUnit4.KeptLine markers (JUnit4.classDefinitions segments) height
            line classes ∧
          (classes 0).isConcrete = true ∧
          test.testName = TestName.ofParts (classes 0).name methodName ∧
          TestMethod.ofName test.testName junit4 =
            (JUnit4.testsAlong classes methodName height).eraseDups) ∧
      ∃ names, findNames markers buffers = .ok names ∧
        (names.Pairwise fun earlier later =>
          utf8Bytes earlier < utf8Bytes later) ∧
        (∀ name, name ∈ names ↔ ∃ test ∈ tests, test.testName = name) ∧
        (Report.render .text tests).toList =
          names.flatMap fun name => name.toList ++ ['\n'] := by
  obtain ⟨segments, junit3, junit4, parsed, byName, byMarker, rfl⟩ :=
    (findMethods_eq_ok_iff markers buffers tests).mp found
  have sorted := TestMethod.sortedByName_sorted (junit3 ++ junit4)
  refine ⟨segments, junit3, junit4, parsed, byName, byMarker,
    TestMethod.sortedByName_perm _, ?_, ?_, ?_, ?_⟩
  · apply sorted.imp
    intro earlier later inOrder
    exact (utf8Bytes_le_iff _ _).mpr inOrder
  · intro name
    refine ⟨?_, JUnit3.ofName_findTests byName name⟩
    rw [merged, TestMethod.ofName_sortedByName, TestMethod.ofName_append]
  · intro plain test member
    exact JUnit4.ofName_findTests_eq byMarker plain member
  · refine ⟨TestMethod.names (merged junit3 junit4), ?_, ?_, ?_, ?_⟩
    · rw [findNames, found]
      rfl
    · apply sorted.names_ascending.imp
      intro earlier later before
      exact (utf8Bytes_lt_iff _ _).mpr before
    · exact fun name => TestMethod.mem_names_iff name _
    · exact Report.toList_render_text _

/-! ### A test that is found three times -/

open JUnit4

/-- The class `P` extends a test case class of the platform, its subclass `C`
overrides its method `testX`, and both methods are marked with `M`. -/
def overrideBytes : Bytes :=
  #[0x64, 0x65, 0x78, 0x0a, 0x30, 0x33, 0x35, 0,
    0, 0, 0, 0,
    0, 0, 0, 0, 0, 0, 0, 0, 0, 0, 0, 0, 0, 0, 0, 0, 0, 0, 0, 0,
    0, 0, 0, 0, 0x70, 0, 0, 0, 0x78, 0x56, 0x34, 0x12,
    0, 0, 0, 0, 0, 0, 0, 0, 0, 0, 0, 0,
    5, 0, 0, 0, 208, 0, 0, 0,
    4, 0, 0, 0, 192, 0, 0, 0,
    0, 0, 0, 0, 0, 0, 0, 0,
    0, 0, 0, 0, 0, 0, 0, 0,
    2, 0, 0, 0, 176, 0, 0, 0,
    2, 0, 0, 0, 112, 0, 0, 0,
    0, 0, 0, 0, 0, 0, 0, 0,
    1, 0, 0, 0, 1, 0, 0, 0, 0, 0, 0, 0, 0, 0, 0, 0,
    0xff, 0xff, 0xff, 0xff, 47, 1, 0, 0, 22, 1, 0, 0, 0, 0, 0, 0,
    2, 0, 0, 0, 1, 0, 0, 0, 1, 0, 0, 0, 0, 0, 0, 0,
    0xff, 0xff, 0xff, 0xff, 71, 1, 0, 0, 29, 1, 0, 0, 0, 0, 0, 0,
    1, 0, 0, 0, 4, 0, 0, 0, 2, 0, 0, 0, 4, 0, 0, 0,
    0, 0, 0, 0, 1, 0, 0, 0, 2, 0, 0, 0, 3, 0, 0, 0,
    228, 0, 0, 0, 0, 1, 0, 0, 5, 1, 0, 0, 10, 1, 0, 0, 15, 1, 0, 0,
    26, 0x4c, 0x6a, 0x75, 0x6e, 0x69, 0x74, 0x2f, 0x66, 0x72, 0x61, 0x6d,
    0x65, 0x77, 0x6f, 0x72, 0x6b, 0x2f, 0x54, 0x65, 0x73, 0x74, 0x43, 0x61,
    0x73, 0x65, 0x3b, 0,
    3, 0x4c, 0x50, 0x3b, 0,
    3, 0x4c, 0x43, 0x3b, 0,
    3, 0x4c, 0x4d, 0x3b, 0,
    5, 0x74, 0x65, 0x73, 0x74, 0x58, 0,
    0, 0, 0, 1, 0, 1, 0,
    0, 0, 0, 1, 1, 1, 0,
    1, 3, 0,
    1, 0, 0, 0, 36, 1, 0, 0,
    0, 0, 0, 0, 0, 0, 0, 0, 1, 0, 0, 0, 0, 0, 0, 0,
    0, 0, 0, 0, 39, 1, 0, 0,
    0, 0, 0, 0, 0, 0, 0, 0, 1, 0, 0, 0, 0, 0, 0, 0,
    1, 0, 0, 0, 39, 1, 0, 0]

def upperDef : ClassDef :=
  { bareClass 1 0 with annotationsOffset := 303, classDataOffset := 278 }

def lowerDef : ClassDef :=
  { bareClass 2 1 with annotationsOffset := 327, classDataOffset := 285 }

def overrideSegment : Segment :=
  { header := { blankHeader with
      stringIds := { size := 5, offset := 208 }
      typeIds := { size := 4, offset := 192 }
      methodIds := { size := 2, offset := 176 }
      classDefs := { size := 2, offset := 112 } }
    strings := #[228, 256, 261, 266, 271]
    types := #[0, 1, 2, 3]
    prototypes := #[]
    fields := #[]
    methods := #[
      { classType := 1, proto := 0, name := 4 },
      { classType := 2, proto := 0, name := 4 }]
    classDefs := #[upperDef, lowerDef]
    data := overrideBytes }

def overridePart : IndexedSegment :=
  overrideSegment.indexed

set_option maxRecDepth 8000 in
private theorem parseSegments_overrideBytes :
    parseSegments [overrideBytes] = .ok [overridePart] := by
  have parsed : Segment.parse overrideBytes = .ok overrideSegment := rfl
  have parsedHere : IndexedSegment.parse overrideBytes = .ok overridePart :=
    bind_eq_ok_iff.mpr ⟨overrideSegment, parsed, rfl⟩
  rw [parseSegments, parseSegmentsFrom, parsedHere]
  rfl

def upperClass : Definition :=
  { segmentNumber := 1, segment := overridePart, classDef := upperDef }

def lowerClass : Definition :=
  { segmentNumber := 1, segment := overridePart, classDef := lowerDef }

theorem override_definitions :
    Definition.ofSegments [overridePart] = [upperClass, lowerClass] ∧
      classDefinitions [overridePart] = [upperClass, lowerClass] :=
  ⟨rfl, rfl⟩

set_option maxRecDepth 8000 in
theorem override_typeDescriptor :
    overridePart.typeDescriptor 0 = .ok "Ljunit/framework/TestCase;" ∧
    overridePart.typeDescriptor 1 = .ok "LP;" ∧
    overridePart.typeDescriptor 2 = .ok "LC;" ∧
    overridePart.typeDescriptor 3 = .ok "LM;" := by
  have described (index offset length : UInt32) (start : Nat) (text : String)
      (listed : Segment.entry .types overrideSegment.types index = .ok index)
      (found : Segment.entry .strings overrideSegment.strings index =
        .ok offset)
      (counted : Reader.uleb128 overrideBytes offset.toNat =
        .ok (length, start))
      (stands : text.toList.map plainByte ++ [0] <+:
        overrideBytes.toList.drop start)
      (plain : IsPlain text.toList) :
      overrideSegment.typeDescriptor index = .ok text :=
    typeDescriptor_of_plain listed found counted stands plain
  exact ⟨described 0 228 26 229 _ rfl rfl rfl (by decide) (by decide),
    described 1 256 3 257 _ rfl rfl rfl (by decide) (by decide),
    described 2 261 3 262 _ rfl rfl rfl (by decide) (by decide),
    described 3 266 3 267 _ rfl rfl rfl (by decide) (by decide)⟩

set_option maxRecDepth 8000 in
theorem override_methodName :
    overridePart.methodName 0 = .ok "testX" ∧
    overridePart.methodName 1 = .ok "testX" := by
  have text : overrideSegment.string 4 = .ok "testX" := by
    have listed : Segment.entry .strings overrideSegment.strings 4 =
        .ok 271 := rfl
    have counted : Reader.uleb128 overrideBytes 271 = .ok (5, 272) := rfl
    exact string_of_plain listed counted (by decide) (by decide)
  exact ⟨bind_eq_ok_iff.mpr ⟨_, rfl, text⟩, bind_eq_ok_iff.mpr ⟨_, rfl, text⟩⟩

theorem override_className :
    overridePart.className 0 = .ok "junit.framework.TestCase" ∧
    overridePart.className 1 = .ok "P" ∧
    overridePart.className 2 = .ok "C" ∧
    overridePart.className 3 = .ok "M" := by
  obtain ⟨platform, upper, lower, marker⟩ := override_typeDescriptor
  exact ⟨bind_eq_ok_iff.mpr ⟨_, platform, by decide⟩,
    bind_eq_ok_iff.mpr ⟨_, upper, by decide⟩,
    bind_eq_ok_iff.mpr ⟨_, lower, by decide⟩,
    bind_eq_ok_iff.mpr ⟨_, marker, by decide⟩⟩

set_option maxRecDepth 8000 in
theorem override_members :
    overridePart.virtualMethodIndices upperDef = .ok [0] ∧
    overridePart.virtualMethodIndices lowerDef = .ok [1] :=
  ⟨rfl, rfl⟩

def bareTest (className : String) : TestMethod :=
  { testName := TestName.ofParts className "testX", annotations := [] }

private theorem testsOf_override {classDef : ClassDef} {method : UInt32}
    {className : String}
    (named : overridePart.className classDef.classType = .ok className)
    (members : overridePart.virtualMethodIndices classDef = .ok [method])
    (methodNamed : overridePart.methodName method = .ok "testX") :
    JUnit3.testsOf
        { segmentNumber := 1, segment := overridePart, classDef := classDef } =
      .ok [bareTest className] := by
  have names : [method].mapM overridePart.methodName = .ok ["testX"] :=
    mapM_eq_ok_iff.mpr (List.Forall₂.cons methodNamed List.Forall₂.nil)
  refine bind_eq_ok_iff.mpr ⟨className, named, ?_⟩
  refine bind_eq_ok_iff.mpr ⟨_, members, ?_⟩
  exact bind_eq_ok_iff.mpr ⟨_, names, rfl⟩

private theorem override_testsOf :
    JUnit3.testsOf upperClass = .ok [bareTest "P"] ∧
    JUnit3.testsOf lowerClass = .ok [bareTest "C"] :=
  ⟨testsOf_override override_className.2.1 override_members.1
    override_methodName.1,
  testsOf_override override_className.2.2.1 override_members.2
    override_methodName.2⟩

private theorem override_superclasses :
    JUnit3.HasSuperclass upperClass "Ljunit/framework/TestCase;" ∧
    JUnit3.HasSuperclass lowerClass "LP;" :=
  ⟨bind_eq_ok_iff.mpr ⟨_, override_typeDescriptor.1, rfl⟩,
    bind_eq_ok_iff.mpr ⟨_, override_typeDescriptor.2.1, rfl⟩⟩

private theorem override_junit3 : ∃ junit3,
    JUnit3.findTests [overridePart] = .ok junit3 ∧
      bareTest "C" ∈ junit3 := by
  have upperIn : upperClass ∈ Definition.ofSegments [overridePart] := by
    simp [override_definitions.1]
  have lowerIn : lowerClass ∈ Definition.ofSegments [overridePart] := by
    simp [override_definitions.1]
  have readable :
      ¬ JUnit3.Unreadable (Definition.ofSegments [overridePart]) := by
    rw [override_definitions.1]
    rintro (⟨definition, member, fault, failed⟩ |
      ⟨definition, testClass, broken⟩)
    · rcases List.mem_pair.mp member with rfl | rfl
      · cases failed.symm.trans override_superclasses.1
      · cases failed.symm.trans override_superclasses.2
    · rcases List.mem_pair.mp testClass.mem with rfl | rfl
      · exact JUnit3.not_broken override_testsOf.1 broken
      · exact JUnit3.not_broken override_testsOf.2 broken
  obtain ⟨junit3, found⟩ := JUnit3.findTests_of_readable readable
  have upperTests : JUnit3.TestClass
      (Definition.ofSegments [overridePart]) upperClass :=
    .seed upperIn override_superclasses.1 (by simp [JUnit3.platformBases])
  have lowerTests : JUnit3.TestClass
      (Definition.ofSegments [overridePart]) lowerClass :=
    .step lowerIn override_superclasses.2 upperTests
      override_typeDescriptor.2.1
  have hasTest := (JUnit3.mem_testsOf override_testsOf.2 _).mp
    List.mem_cons_self
  exact ⟨junit3, found, ((JUnit3.mem_findTests_iff found).2 _).mpr
    ⟨hasTest.1, lowerClass, lowerTests, hasTest.2⟩⟩

def overrideMark : TestAnnotation :=
  { name := "M", values := [], inherited := false }

def markedTest (className : String) : TestMethod :=
  { bareTest className with annotations := [overrideMark] }

def overrideDirectory (method : UInt32) : Directory :=
  { classOffset := 0
    fields := []
    methods := [{ member := method, offset := 295 }]
    parameters := [] }

def overrideSummary (name : String) (type : UInt32) (superclass : String) :
    ClassSummary :=
  { name := name
    segmentNumber := 1
    classType := type
    superclassName := some superclass
    annotations := []
    tests := [markedTest name]
    isConcrete := true }

set_option maxRecDepth 8000 in
theorem override_directories :
    overridePart.directory? upperDef = .ok (some (overrideDirectory 0)) ∧
    overridePart.directory? lowerDef = .ok (some (overrideDirectory 1)) ∧
    itemsAt overrideBytes 295 =
      .ok [{ visibility := 1, payload := { type := 3, elements := [] } }] :=
  ⟨rfl, rfl, rfl⟩

private theorem override_noMarker : overridePart.marker.get = .ok none := by
  obtain ⟨platform, upper, lower, marker⟩ := override_typeDescriptor
  rw [overridePart.marker_get]
  apply markerAmong_eq_none
  have allTypes : List.range overridePart.types.size = [0, 1, 2, 3] := rfl
  rw [allTypes]
  simp only [List.forall_mem_cons]
  exact ⟨⟨_, platform, by decide⟩, ⟨_, upper, by decide⟩,
    ⟨_, lower, by decide⟩, ⟨_, marker, by decide⟩, by simp⟩

private theorem override_annotationsAt :
    overridePart.annotationsAt 295 = .ok [overrideMark] := by
  have notInherited : overridePart.isInherited 3 = .ok false :=
    bind_eq_ok_iff.mpr ⟨none, override_noMarker, rfl⟩
  have resolved : overridePart.resolveItem
      { visibility := 1, payload := { type := 3, elements := [] } } =
        .ok overrideMark := by
    refine bind_eq_ok_iff.mpr ⟨_, override_className.2.2.2, ?_⟩
    refine bind_eq_ok_iff.mpr ⟨[], rfl, ?_⟩
    exact bind_eq_ok_iff.mpr ⟨false, notInherited, rfl⟩
  refine bind_eq_ok_iff.mpr ⟨_, override_directories.2.2, ?_⟩
  exact mapM_eq_ok_iff.mpr (List.Forall₂.cons resolved List.Forall₂.nil)

theorem summarizes_override {classDef : ClassDef} {method : UInt32}
    {className superclass : String}
    (named : overridePart.className classDef.classType = .ok className)
    (superclassNamed : superclassName? overrideSegment classDef =
      .ok (some superclass))
    (concrete : classDef.isConcrete = true)
    (read : overridePart.directory? classDef =
      .ok (some (overrideDirectory method)))
    (members : overridePart.virtualMethodIndices classDef = .ok [method])
    (methodNamed : overridePart.methodName method = .ok "testX") :
    Summarizes ["M"]
      { segmentNumber := 1, segment := overridePart, classDef := classDef }
      (overrideSummary className classDef.classType superclass) := by
  have marked : markedTest? ["M"] overridePart (overrideDirectory method)
      className [] method = .ok (some (markedTest className)) := by
    refine (markedTest?_eq_some_iff _ _ _ _ _ _).mpr ⟨?_,
      [overrideMark], "testX", ?_, ⟨overrideMark, by simp, by decide⟩,
      methodNamed, rfl⟩
    · simp [Directory.hasMethod, overrideDirectory]
    · have listed : (overrideDirectory method).methodOffset? method =
          some 295 := by
        simp [Directory.methodOffset?, overrideDirectory]
      simp only [IndexedSegment.methodAnnotations, listed]
      exact override_annotationsAt
  have found := mapM_eq_ok_iff.mpr (List.Forall₂.cons marked List.Forall₂.nil)
  have tests : ownTests ["M"] overridePart classDef
      (some (overrideDirectory method)) className [] =
        .ok [markedTest className] := by
    refine bind_eq_ok_iff.mpr ⟨_, members, ?_⟩
    exact bind_eq_ok_iff.mpr ⟨_, found, rfl⟩
  exact {
    name := named
    segmentNumber := rfl
    classType := rfl
    superclassName := superclassNamed
    isConcrete := concrete.symm
    contents := ⟨some (overrideDirectory method), read, rfl, tests⟩ }

def upperSummary : ClassSummary :=
  overrideSummary "P" 1 "junit.framework.TestCase"

def lowerSummary : ClassSummary :=
  overrideSummary "C" 2 "P"

theorem override_superclassNames :
    HasSuperclassName upperClass "junit.framework.TestCase" ∧
    HasSuperclassName lowerClass "P" :=
  ⟨hasSuperclassName_of_type 0 rfl override_className.1,
    hasSuperclassName_of_type 1 rfl override_className.2.1⟩

theorem upperClass_summarizes :
    Summarizes ["M"] upperClass upperSummary :=
  summarizes_override override_className.2.1 override_superclassNames.1 rfl
    override_directories.1 override_members.1 override_methodName.1

theorem lowerClass_summarizes :
    Summarizes ["M"] lowerClass lowerSummary :=
  summarizes_override override_className.2.2.1 override_superclassNames.2 rfl
    override_directories.2.1 override_members.2 override_methodName.2

theorem override_plain : PlainNames (classDefinitions [overridePart]) := by
  rw [override_definitions.2, PlainNames, List.forall_mem_cons,
    List.forall_mem_singleton]
  constructor
  · intro name named
    rw [named.unique upperClass_summarizes.name]
    decide
  · intro name named
    rw [named.unique lowerClass_summarizes.name]
    decide

private theorem override_distinct :
    DistinctNames (classDefinitions [overridePart]) := by
  rw [override_definitions.2, DistinctNames, List.pairwise_pair]
  exact upperClass_summarizes.name.apart lowerClass_summarizes.name (by decide)

theorem override_kept :
    Kept (classDefinitions [overridePart]) upperClass ∧
      Kept (classDefinitions [overridePart]) lowerClass :=
  ⟨override_distinct.kept (by simp [override_definitions.2]),
    override_distinct.kept (by simp [override_definitions.2])⟩

theorem override_edge_iff (parent child : Definition) :
    KeptParent (classDefinitions [overridePart]) parent child ↔
      parent = upperClass ∧ child = lowerClass := by
  obtain ⟨ofUpper, ofLower⟩ := override_superclassNames
  constructor
  · intro edge
    obtain ⟨name, parentNamed, childNamed⟩ := edge.named
    have parentMember := edge.parentKept.mem
    have childMember := edge.childKept.mem
    rw [override_definitions.2, List.mem_pair] at parentMember childMember
    rcases childMember with rfl | rfl
    · rw [childNamed.unique ofUpper] at parentNamed
      rcases parentMember with rfl | rfl
      · exact absurd (parentNamed.unique upperClass_summarizes.name)
          (by decide)
      · exact absurd (parentNamed.unique lowerClass_summarizes.name)
          (by decide)
    · rw [childNamed.unique ofLower] at parentNamed
      exact ⟨override_kept.1.unique edge.parentKept
        upperClass_summarizes.name parentNamed |>.symm, rfl⟩
  · rintro ⟨rfl, rfl⟩
    exact ⟨override_kept.1, override_kept.2, "P",
      upperClass_summarizes.name, ofLower⟩

private theorem override_junit4 : ∃ junit4,
    JUnit4.findTests ["M"] [overridePart] = .ok junit4 ∧
      markedTest "C" ∈ junit4 := by
  have summarized : ∀ definition ∈ classDefinitions [overridePart],
      ∃ summary, summarize ["M"] definition = .ok summary := by
    rw [override_definitions.2, List.forall_mem_cons,
      List.forall_mem_singleton]
    exact ⟨⟨_, (summarize_eq_ok_iff _ _).mpr upperClass_summarizes⟩,
      ⟨_, (summarize_eq_ok_iff _ _).mpr lowerClass_summarizes⟩⟩
  have oneGeneration : ∀ parent child grandchild,
      KeptParent (classDefinitions [overridePart]) parent child →
        ¬ KeptParent (classDefinitions [overridePart]) child grandchild := by
    intro parent child grandchild first second
    have same := ((override_edge_iff _ _).mp second).1.symm.trans
      ((override_edge_iff _ _).mp first).2
    have clash := (same ▸ upperClass_summarizes.name).unique
      lowerClass_summarizes.name
    exact absurd clash (by decide)
  obtain ⟨junit4, found⟩ := findTests_of_one_generation summarized oneGeneration
  obtain ⟨survey, surveyed, acyclic, rfl⟩ :=
    (findTests_eq_ok_iff _ _).mp found
  have represents := Survey.represents_of_ofSegments surveyed
  obtain ⟨position, positionIs⟩ :=
    represents.exists_get_eq override_kept.2 lowerClass_summarizes
  refine ⟨_, found, (mem_concreteTests_iff acyclic _).mpr ⟨position, ?_, ?_⟩⟩
  · rw [positionIs]
    rfl
  · apply mem_complete_of_own acyclic
    rw [positionIs]
    exact List.mem_cons_self

private theorem override_line {height : Nat} {line : Nat → Definition}
    {classes : Nat → ClassSummary} {methodName : String}
    (kept : KeptLine ["M"] (classDefinitions [overridePart]) height line
      classes)
    (named : TestName.ofParts "C" "testX" =
      TestName.ofParts (classes 0).name methodName) :
    height = 1 ∧ classes 0 = lowerSummary ∧ classes 1 = upperSummary ∧
      methodName = "testX" := by
  have bottom := kept.summarizes 0 (Nat.zero_le height)
  obtain ⟨isLower, isMethod⟩ := TestName.ofParts_inj (by decide)
    (override_plain _ kept.kept.mem _ bottom.name) named
  have lowest : line 0 = lowerClass :=
    kept.kept.unique override_kept.2 bottom.name
      (isLower ▸ lowerClass_summarizes.name)
  have lowestIs := (lowest ▸ bottom).unique lowerClass_summarizes
  have edge := (override_edge_iff upperClass lowerClass).mpr ⟨rfl, rfl⟩
  match height with
  | 0 => exact (kept.top upperClass (lowest ▸ edge)).elim
  | height + 1 =>
      have second : line 1 = upperClass :=
        ((override_edge_iff _ _).mp
          (kept.parents 0 (Nat.succ_pos height))).1
      have secondIs := (second ▸ kept.summarizes 1 (by omega)).unique
        upperClass_summarizes
      match height with
      | 0 => exact ⟨rfl, lowestIs, secondIs, isMethod.symm⟩
      | height + 1 =>
          have above := ((override_edge_iff _ _).mp
            (kept.parents 1 (by omega))).2
          have clash := ((second.symm.trans above) ▸
            upperClass_summarizes.name).unique lowerClass_summarizes.name
          exact absurd clash (by decide)

/-- The test of `C` is found by name, then for its own marker, then as what it
inherits, which has lost the marker. -/
theorem overrideBytes_in_order : ∃ tests,
    findMethods ["M"] [overrideBytes] = .ok tests ∧
      TestMethod.ofName "C#testX" tests =
        [{ testName := "C#testX", annotations := [] },
          { testName := "C#testX", annotations := [overrideMark] },
          { testName := "C#testX", annotations := [] }] := by
  obtain ⟨junit3, byName, inJUnit3⟩ := override_junit3
  obtain ⟨junit4, byMarker, inJUnit4⟩ := override_junit4
  have found := (findMethods_eq_ok_iff ["M"] [overrideBytes] _).mpr
    ⟨_, junit3, junit4, parseSegments_overrideBytes, byName, byMarker, rfl⟩
  refine ⟨_, found, ?_⟩
  obtain ⟨segments, otherJUnit3, otherJUnit4, parsed, byName', byMarker', _, _,
    perName, alongLine, _⟩ := findMethods_in_order found
  cases parsed.symm.trans parseSegments_overrideBytes
  cases byName'.symm.trans byName
  cases byMarker'.symm.trans byMarker
  obtain ⟨whole, none | bare⟩ := perName "C#testX"
  · have member := (TestMethod.mem_ofName_iff "C#testX" _ _).mpr
      ⟨inJUnit3, rfl⟩
    rw [none] at member
    cases member
  · obtain ⟨height, line, classes, methodName, kept, _, named, marked⟩ :=
      alongLine override_plain _ inJUnit4
    obtain ⟨rfl, lowest, second, rfl⟩ := override_line kept named
    have marked : TestMethod.ofName "C#testX" junit4 =
        (testsAlong classes "testX" 1).eraseDups := marked
    rw [whole, bare, marked, testsAlong_succ, testsAlong_zero, lowest, second]
    decide

end Discovery
end DexCensus
