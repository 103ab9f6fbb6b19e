/-
Discovery in segments with more bytes behind their buffers.

Both searches do with the longer segments what they do with the shorter ones,
step by step: the definitions stand in the same order, each step is decided by
lookups that give the same result, and what a search remembers holds texts and
test methods, which do not mention the buffers.  A run that succeeds in cut
segments is therefore also the run in the full ones.
-/

import DexCensus.Discovery
import DexCensus.Proofs.JUnit3.Search
import DexCensus.Proofs.PlainString
import DexCensus.Proofs.Truncation.Segment

namespace DexCensus

open Dex

structure Definition.Extends (cut full : Definition) : Prop where
  segmentNumber : full.segmentNumber = cut.segmentNumber
  segment : cut.segment.Extends full.segment
  classDef : full.classDef = cut.classDef

abbrev SegmentsExtend (cut full : List IndexedSegment) : Prop :=
  List.Forall₂ IndexedSegment.Extends cut full

abbrev DefinitionsExtend (cut full : List Definition) : Prop :=
  List.Forall₂ Definition.Extends cut full

namespace Definition

theorem ofSegment_extend {cut full : IndexedSegment}
    (extend : cut.Extends full) (segmentNumber : Nat) :
    DefinitionsExtend (ofSegment segmentNumber cut)
      (ofSegment segmentNumber full) := by
  have sameClasses : full.classDefs = cut.classDefs := by rw [extend.tables]
  unfold ofSegment
  rw [sameClasses]
  apply List.rel_map (R := Eq)
  · intro classDef other same
    subst same
    exact { segmentNumber := rfl, segment := extend, classDef := rfl }
  · exact List.forall₂_refl _

theorem ofSegmentsFrom_extend {cut full : List IndexedSegment}
    (extend : SegmentsExtend cut full) (first : Nat) :
    DefinitionsExtend (ofSegmentsFrom first cut)
      (ofSegmentsFrom first full) := by
  induction extend generalizing first with
  | nil => exact List.Forall₂.nil
  | cons here rest ih =>
      exact List.rel_append (ofSegment_extend here first) (ih (first + 1))

theorem ofSegments_extend {cut full : List IndexedSegment}
    (extend : SegmentsExtend cut full) :
    DefinitionsExtend (ofSegments cut) (ofSegments full) :=
  ofSegmentsFrom_extend extend 1

end Definition

namespace JUnit3

theorem testsOf_extend {cut full : Definition} (extend : cut.Extends full) :
    Follows Eq (testsOf cut) (testsOf full) := by
  unfold testsOf
  rw [extend.classDef]
  apply (Segment.Extends.className extend.segment _).bindSame
  intro className
  apply (Segment.Extends.virtualMethodIndices extend.segment _).bindSame
  intro methods
  apply (Follows.mapMSame
    (Segment.Extends.methodName extend.segment) methods).bindSame
  intro names
  exact Follows.refl _

/-- Scans that know the same and wait for the same definitions, those of the
second in segments with more bytes. -/
structure Scan.Extends (cut full : Scan) : Prop where
  search : full.search = cut.search
  waiting : DefinitionsExtend cut.waiting full.waiting
  found : full.found = cut.found

theorem Scan.start_extend (search : Search) :
    Extends (start search) (start search) :=
  { search := rfl, waiting := List.Forall₂.nil, found := rfl }

theorem Scan.pass_extend {cut full : Scan} (scans : Extends cut full)
    {definition other : Definition} (extend : definition.Extends other) :
    Extends (cut.pass definition) (full.pass other) :=
  { search := scans.search
    waiting := List.Forall₂.cons extend scans.waiting
    found := scans.found }

theorem Scan.admitClass_extend {cut full : Scan} (scans : Extends cut full)
    (descriptor : String) (tests : List TestMethod) :
    Extends (cut.admitClass descriptor tests)
      (full.admitClass descriptor tests) := by
  constructor
  · simp only [admitClass, scans.search]
  · exact scans.waiting
  · simp only [admitClass, scans.search, scans.found]

theorem Scan.examine_extend {cut full : Scan} (scans : Extends cut full)
    {definition other : Definition} (extend : definition.Extends other) :
    Follows Extends (cut.examine definition) (full.examine other) := by
  intro next examined
  unfold examine at examined ⊢
  rw [extend.classDef, scans.search]
  split at examined
  · cases examined
  · rename_i noSuperclass
    rw [(Segment.Extends.superclassDescriptor? extend.segment _).same
      noSuperclass]
    cases examined
    exact ⟨_, rfl, pass_extend scans extend⟩
  · rename_i superclass read
    rw [(Segment.Extends.superclassDescriptor? extend.segment _).same read]
    by_cases isBase : superclass ∈ cut.search.bases
    · simp only [if_pos isBase] at examined ⊢
      split at examined
      · cases examined
      · rename_i descriptor named
        have named := (Segment.Extends.typeDescriptor extend.segment _).same
          named
        unfold Segment.classDescriptor
        rw [named]
        split at examined
        · cases examined
        · rename_i tests listed
          simp only [(testsOf_extend extend).same listed]
          cases examined
          exact ⟨_, rfl, admitClass_extend scans descriptor tests⟩
    · simp only [if_neg isBase] at examined ⊢
      cases examined
      exact ⟨_, rfl, pass_extend scans extend⟩

theorem Search.scan_extend (search : Search) {cut full : List Definition}
    (extend : DefinitionsExtend cut full) :
    Follows Scan.Extends (search.scan cut) (search.scan full) := by
  refine Follows.foldlM ?_ extend (Scan.start_extend search)
  intro scan scanFull definition other scans extendHere
  exact Scan.examine_extend scans extendHere

theorem Search.complete_extend (search : Search) (cut : List Definition) :
    ∀ full, DefinitionsExtend cut full →
      Follows Eq (search.complete cut) (search.complete full) := by
  induction search, cut using Search.complete.induct with
  | case1 search cut error failed =>
      intro full extend
      rw [Search.complete_of_error failed]
      exact Follows.error _ _
  | case2 search cut result scanned settled =>
      intro full extend
      obtain ⟨resultFull, scannedFull, scans⟩ :=
        search.scan_extend extend result scanned
      have settledFull : resultFull.found = 0 := scans.found.trans settled
      rw [Search.complete_of_settled scanned settled,
        Search.complete_of_settled scannedFull settledFull, scans.search]
      exact Follows.refl _
  | case3 search cut result scanned unsettled ih =>
      intro full extend
      obtain ⟨resultFull, scannedFull, scans⟩ :=
        search.scan_extend extend result scanned
      have progressFull : resultFull.found ≠ 0 := by
        rw [scans.found]
        exact unsettled
      rw [Search.complete_of_progress scanned unsettled,
        Search.complete_of_progress scannedFull progressFull, scans.search]
      exact ih _ (List.rel_reverse scans.waiting)

theorem findTests_extend {cut full : List IndexedSegment}
    (extend : SegmentsExtend cut full) :
    Follows Eq (findTests cut) (findTests full) :=
  (Search.initial.complete_extend _ _
    (Definition.ofSegments_extend extend)).bindSame fun _ => Follows.refl _

end JUnit3

namespace JUnit4

variable (markers : List String)

theorem markedTest?_extend {cut full : IndexedSegment}
    (extend : cut.Extends full) (directory : Directory) (className : String)
    (classAnnotations : List TestAnnotation) (method : UInt32) :
    Follows Eq
      (markedTest? markers cut directory className classAnnotations method)
      (markedTest? markers full directory className classAnnotations method) := by
  unfold markedTest?
  by_cases listed : directory.hasMethod method = true
  · rw [if_pos listed, if_pos listed]
    apply (extend.methodAnnotations method (some directory)).bindSame
    intro own
    by_cases marked : (classAnnotations ++ own).any
        (fun entry => isMarker markers entry.name) = true
    · simp only [if_pos marked]
      exact (Segment.Extends.methodName extend method).bindSame
        fun _ => Follows.refl _
    · simp only [if_neg marked]
      exact Follows.refl _
  · rw [if_neg listed, if_neg listed]
    exact Follows.refl _

theorem ownTests_extend {cut full : IndexedSegment}
    (extend : cut.Extends full) (classDef : ClassDef)
    (directory : Option Directory) (className : String)
    (classAnnotations : List TestAnnotation) :
    Follows Eq
      (ownTests markers cut classDef directory className classAnnotations)
      (ownTests markers full classDef directory className
        classAnnotations) := by
  cases directory with
  | none => exact Follows.refl _
  | some directory =>
      apply (Segment.Extends.virtualMethodIndices extend classDef).bindSame
      intro methods
      exact (Follows.mapMSame (markedTest?_extend markers extend directory
        className classAnnotations) methods).bindSame fun _ => Follows.refl _

theorem superclassName?_extend {cut full : Segment}
    (extend : cut.Extends full) (classDef : ClassDef) :
    Follows Eq (superclassName? cut classDef)
      (superclassName? full classDef) :=
  (extend.superclassDescriptor? classDef).bindSame fun _ => Follows.refl _

theorem summaryOf_extend {cut full : Definition} (extend : cut.Extends full)
    (descriptor : String) :
    Follows Eq (summaryOf markers cut descriptor)
      (summaryOf markers full descriptor) := by
  unfold summaryOf
  rw [extend.classDef, extend.segmentNumber]
  apply (Follows.refl _).bindSame
  intro name
  apply (superclassName?_extend extend.segment cut.classDef).bindSame
  intro superclassName
  apply (Segment.Extends.directory? extend.segment cut.classDef).bindSame
  intro directory
  apply (extend.segment.classAnnotations directory).bindSame
  intro annotations
  exact (ownTests_extend markers extend.segment cut.classDef directory name
    annotations).bindSame fun _ => Follows.refl _

theorem summarize_extend {cut full : Definition} (extend : cut.Extends full) :
    Follows Eq (summarize markers cut) (summarize markers full) := by
  intro summary found
  unfold summarize at found ⊢
  rw [extend.classDef]
  split at found
  · cases found
  · rename_i descriptor named
    have named := (Segment.Extends.typeDescriptor extend.segment _).same named
    unfold Segment.classDescriptor
    rw [named]
    split at found
    · cases found
    · rename_i sum summed
      simp only [(summaryOf_extend markers extend descriptor).same summed]
      exact ⟨summary, found, rfl⟩

theorem Survey.extend_extend {cut full : List Definition}
    (extend : DefinitionsExtend cut full) (survey last : Survey)
    (surveyed : survey.extend markers cut = (last, none)) :
    survey.extend markers full = (last, none) := by
  induction extend generalizing survey with
  | nil => exact surveyed
  | cons here rest ih =>
      unfold Survey.extend at surveyed ⊢
      split at surveyed
      · cases surveyed
      · rename_i summary found
        simp only [(summarize_extend markers here).same found]
        exact ih _ surveyed

theorem Survey.ofSegments_extend {cut full : List IndexedSegment}
    (extend : SegmentsExtend cut full) {survey : Survey}
    (surveyed : ofSegments markers cut = (survey, none)) :
    ofSegments markers full = (survey, none) := by
  refine extend_extend markers (List.rel_filter ?_
    (Definition.ofSegments_extend extend)) _ _ surveyed
  intro definition other extendHere
  simp only [extendHere.classDef]

theorem discover_extend {cut full : List IndexedSegment}
    (extend : SegmentsExtend cut full) {tests : List TestMethod}
    (found : (discover markers cut).tests = .ok tests) :
    discover markers full = discover markers cut := by
  unfold discover at found ⊢
  cases surveyed : Survey.ofSegments markers cut with
  | mk survey failure =>
      rw [surveyed] at found
      cases failure with
      | some error => cases found
      | none => rw [Survey.ofSegments_extend markers extend surveyed]

end JUnit4

/-! ### Whole packages -/

theorem parseSegmentsFrom_extend {cut full : List Bytes}
    (longer : List.Forall₂ Longer cut full) (first : Nat)
    {done doneFull : List IndexedSegment} (extend : SegmentsExtend done doneFull) :
    Follows SegmentsExtend (parseSegmentsFrom first done cut)
      (parseSegmentsFrom first doneFull full) := by
  induction longer generalizing first done doneFull with
  | nil => exact Follows.ok (List.rel_reverse extend)
  | cons here rest ih =>
      intro segments parsed
      unfold parseSegmentsFrom at parsed ⊢
      split at parsed
      · rename_i segment parsedHere
        obtain ⟨segmentFull, parsedFull, extendHere⟩ :=
          IndexedSegment.parse_extends here segment parsedHere
        rw [parsedFull]
        exact ih (first + 1) (List.Forall₂.cons extendHere extend) segments
          parsed
      · cases parsed

namespace Discovery

variable (markers : List String)

theorem ofSegments_extend {cut full : List IndexedSegment}
    (extend : SegmentsExtend cut full) {tests : List TestMethod}
    (found : (ofSegments markers cut).tests = .ok tests) :
    ofSegments markers full = ofSegments markers cut := by
  unfold ofSegments at found ⊢
  cases searched : JUnit3.findTests cut with
  | error error =>
      rw [searched] at found
      cases found
  | ok junit3 =>
      rw [searched] at found
      rw [(JUnit3.findTests_extend extend).same searched]
      cases surveyed : (JUnit4.discover markers cut).tests with
      | error error =>
          simp only [surveyed] at found
          cases found
      | ok junit4 =>
          simp only [JUnit4.discover_extend markers extend surveyed]

theorem ofBuffers_extend {cut full : List Bytes}
    (longer : List.Forall₂ Longer cut full) {tests : List TestMethod}
    (found : (ofBuffers markers cut).tests = .ok tests) :
    ofBuffers markers full = ofBuffers markers cut := by
  unfold ofBuffers at found ⊢
  cases parsed : parseSegments cut with
  | error error =>
      rw [parsed] at found
      cases found
  | ok segments =>
      rw [parsed] at found
      obtain ⟨segmentsFull, parsedFull, extend⟩ :=
        parseSegmentsFrom_extend longer 1 List.Forall₂.nil segments parsed
      rw [parseSegments, parsedFull]
      exact ofSegments_extend markers extend found

/-- Cutting buffers off never changes the tests that are found: what succeeds
in prefixes of the buffers succeeds with the same tests in the buffers. -/
theorem findMethods_extend (cut full : List Bytes)
    (longer : List.Forall₂
      (fun before after => before.toList <+: after.toList) cut full)
    (tests : List TestMethod) (found : findMethods markers cut = .ok tests) :
    findMethods markers full = .ok tests := by
  unfold findMethods at found ⊢
  rw [ofBuffers_extend markers longer found]
  exact found

/-! ### A package with one test -/

/-- A segment whose only definition is an interface below `TestCase` with the
virtual method `testA`: header, tables, strings, class data. -/
def oneTestBytes : Bytes :=
  #[0x64, 0x65, 0x78, 0x0a, 0x30, 0x33, 0x35, 0,
    0, 0, 0, 0,
    0, 0, 0, 0, 0, 0, 0, 0, 0, 0, 0, 0, 0, 0, 0, 0, 0, 0, 0, 0,
    0, 0, 0, 0, 0x70, 0, 0, 0, 0x78, 0x56, 0x34, 0x12,
    0, 0, 0, 0, 0, 0, 0, 0, 0, 0, 0, 0,
    3, 0, 0, 0, 112, 0, 0, 0,
    2, 0, 0, 0, 124, 0, 0, 0,
    0, 0, 0, 0, 0, 0, 0, 0,
    0, 0, 0, 0, 0, 0, 0, 0,
    1, 0, 0, 0, 132, 0, 0, 0,
    1, 0, 0, 0, 140, 0, 0, 0,
    0, 0, 0, 0, 0, 0, 0, 0,
    172, 0, 0, 0, 200, 0, 0, 0, 205, 0, 0, 0,
    0, 0, 0, 0, 1, 0, 0, 0,
    1, 0, 0, 0, 2, 0, 0, 0,
    1, 0, 0, 0, 0, 2, 0, 0, 0, 0, 0, 0, 0, 0, 0, 0,
    0xff, 0xff, 0xff, 0xff, 0, 0, 0, 0, 212, 0, 0, 0, 0, 0, 0, 0,
    26, 0x4c, 0x6a, 0x75, 0x6e, 0x69, 0x74, 0x2f, 0x66, 0x72, 0x61, 0x6d,
    0x65, 0x77, 0x6f, 0x72, 0x6b, 0x2f, 0x54, 0x65, 0x73, 0x74, 0x43, 0x61,
    0x73, 0x65, 0x3b, 0,
    3, 0x4c, 0x54, 0x3b, 0,
    5, 0x74, 0x65, 0x73, 0x74, 0x41, 0,
    0, 0, 0, 1, 0, 1, 0]

def oneTestClass : ClassDef :=
  { classType := 1
    accessFlags := 0x200
    superclassType := 0
    interfacesOffset := 0
    sourceFile := noIndex
    annotationsOffset := 0
    classDataOffset := 212
    staticValuesOffset := 0 }

def oneTestSegment : Segment :=
  { header :=
      { magic := [0x64, 0x65, 0x78, 0x0a, 0x30, 0x33, 0x35, 0]
        version := 35
        checksum := 0
        signature := List.replicate 20 0
        fileSize := 0
        headerSize := 112
        endianTag := endianTag
        link := { size := 0, offset := 0 }
        mapOffset := 0
        stringIds := { size := 3, offset := 112 }
        typeIds := { size := 2, offset := 124 }
        protoIds := { size := 0, offset := 0 }
        fieldIds := { size := 0, offset := 0 }
        methodIds := { size := 1, offset := 132 }
        classDefs := { size := 1, offset := 140 }
        data := { size := 0, offset := 0 } }
    strings := #[172, 200, 205]
    types := #[0, 1]
    prototypes := #[]
    fields := #[]
    methods := #[{ classType := 1, proto := 0, name := 2 }]
    classDefs := #[oneTestClass]
    data := oneTestBytes }

def oneTestDefinition : Definition :=
  { segmentNumber := 1
    segment := oneTestSegment.indexed
    classDef := oneTestClass }

def oneTest : TestMethod :=
  { testName := "T#testA", annotations := [] }

set_option maxRecDepth 8000 in
private theorem parse_oneTestBytes :
    Segment.parse oneTestBytes = .ok oneTestSegment := by
  rfl

set_option maxRecDepth 8000 in
private theorem oneTest_string0 :
    oneTestSegment.string 0 = .ok "Ljunit/framework/TestCase;" := by
  have listed : Segment.entry .strings oneTestSegment.strings 0 = .ok 172 := rfl
  have counted : Reader.uleb128 oneTestBytes 172 = .ok (26, 173) := rfl
  exact string_of_plain listed counted (by decide) (by decide)

set_option maxRecDepth 8000 in
private theorem oneTest_string1 : oneTestSegment.string 1 = .ok "LT;" := by
  have listed : Segment.entry .strings oneTestSegment.strings 1 = .ok 200 := rfl
  have counted : Reader.uleb128 oneTestBytes 200 = .ok (3, 201) := rfl
  exact string_of_plain listed counted (by decide) (by decide)

set_option maxRecDepth 8000 in
private theorem oneTest_string2 : oneTestSegment.string 2 = .ok "testA" := by
  have listed : Segment.entry .strings oneTestSegment.strings 2 = .ok 205 := rfl
  have counted : Reader.uleb128 oneTestBytes 205 = .ok (5, 206) := rfl
  exact string_of_plain listed counted (by decide) (by decide)

private theorem oneTest_superclass :
    oneTestSegment.superclassDescriptor? oneTestClass =
      .ok (some "Ljunit/framework/TestCase;") := by
  have named : oneTestSegment.typeDescriptor 0 = _ :=
    bind_eq_ok_iff.mpr ⟨0, rfl, oneTest_string0⟩
  exact bind_eq_ok_iff.mpr ⟨_, named, rfl⟩

theorem oneTest_descriptor :
    oneTestSegment.classDescriptor oneTestClass = .ok "LT;" :=
  bind_eq_ok_iff.mpr ⟨1, rfl, oneTest_string1⟩

set_option maxRecDepth 8000 in
private theorem oneTest_members :
    oneTestSegment.virtualMethodIndices oneTestClass = .ok [0] := by
  rfl

private theorem testsOf_oneTestDefinition :
    JUnit3.testsOf oneTestDefinition = .ok [oneTest] := by
  have named : oneTestSegment.className 1 = .ok "T" :=
    bind_eq_ok_iff.mpr ⟨"LT;", oneTest_descriptor, by decide⟩
  have methodNamed : oneTestSegment.methodName 0 = .ok "testA" :=
    bind_eq_ok_iff.mpr ⟨_, rfl, oneTest_string2⟩
  have allNamed : [(0 : UInt32)].mapM oneTestSegment.methodName =
      .ok ["testA"] :=
    mapM_eq_ok_iff.mpr (List.Forall₂.cons methodNamed List.Forall₂.nil)
  have listed : ((["testA"].filter JUnit3.isTestName).map fun name =>
      TestMethod.mk (TestName.ofParts "T" name) []) = [oneTest] := by
    decide
  refine bind_eq_ok_iff.mpr ⟨"T", named, ?_⟩
  refine bind_eq_ok_iff.mpr ⟨[0], oneTest_members, ?_⟩
  exact bind_eq_ok_iff.mpr ⟨["testA"], allNamed, congrArg Except.ok listed⟩

private theorem findTests_oneTestSegment :
    JUnit3.findTests [oneTestSegment.indexed] = .ok [oneTest] := by
  have isBase : "Ljunit/framework/TestCase;" ∈ JUnit3.Search.initial.bases := by
    simp [JUnit3.Search.initial, JUnit3.platformBases]
  let admitted :=
    (JUnit3.Scan.start JUnit3.Search.initial).admitClass "LT;" [oneTest]
  have examined : JUnit3.Scan.examine (JUnit3.Scan.start JUnit3.Search.initial)
      oneTestDefinition = .ok admitted := by
    have superclass : oneTestDefinition.segment.superclassDescriptor?
        oneTestDefinition.classDef = _ := oneTest_superclass
    have descriptor : oneTestDefinition.segment.classDescriptor
        oneTestDefinition.classDef = _ := oneTest_descriptor
    have bases : (JUnit3.Scan.start JUnit3.Search.initial).search.bases =
        JUnit3.Search.initial.bases := rfl
    simp only [JUnit3.Scan.examine, superclass, descriptor, bases,
      if_pos isBase, testsOf_oneTestDefinition, admitted]
  have scanned : JUnit3.Search.initial.scan [oneTestDefinition] =
      .ok admitted := by
    rw [JUnit3.Search.scan, List.foldlM_cons, examined]
    rfl
  have progress : admitted.found = 1 := by
    simp [admitted, JUnit3.Scan.admitClass, JUnit3.Scan.start,
      JUnit3.Search.initial, JUnit3.platformBases]
  have definitions : Definition.ofSegments [oneTestSegment.indexed] =
      [oneTestDefinition] := rfl
  have completed : JUnit3.Search.initial.complete [oneTestDefinition] =
      .ok (JUnit3.Scan.start admitted.search).search := by
    rw [JUnit3.Search.complete_of_progress scanned (by omega)]
    exact JUnit3.Search.complete_of_settled rfl rfl
  have listed : admitted.search.tests.toList = [oneTest] := by
    change (OrderedSet.empty.insert oneTest).toList = [oneTest]
    rw [OrderedSet.toList_insert, OrderedSet.toList_empty,
      if_neg List.not_mem_nil, List.nil_append]
  rw [JUnit3.findTests, definitions, completed]
  exact congrArg Except.ok listed

private theorem findMethods_oneTestBytes :
    findMethods [] [oneTestBytes] = .ok [oneTest] := by
  have parsedHere : IndexedSegment.parse oneTestBytes =
      .ok oneTestSegment.indexed :=
    bind_eq_ok_iff.mpr ⟨oneTestSegment, parse_oneTestBytes, rfl⟩
  have parsed : parseSegments [oneTestBytes] =
      .ok [oneTestSegment.indexed] := by
    rw [parseSegments, parseSegmentsFrom, parsedHere]
    rfl
  -- An interface is passed over by the search for annotated tests.
  have noneMarked : (JUnit4.discover [] [oneTestSegment.indexed]).tests =
      .ok [] := by
    rfl
  have sorted : merged [oneTest] [] = [oneTest] := by
    rw [merged, List.append_nil, TestMethod.sortedByName,
      List.mergeSort_singleton]
  rw [findMethods, ofBuffers, parsed]
  simp only [ofSegments, findTests_oneTestSegment, noneMarked]
  exact congrArg Except.ok sorted

/-- Bytes behind the segment do not change its one test. -/
theorem findMethods_oneTestBytes_longer :
    findMethods [] [oneTestBytes ++ #[0x50, 0x4b]] = .ok [oneTest] := by
  refine findMethods_extend [] [oneTestBytes] _ ?_ [oneTest]
    findMethods_oneTestBytes
  refine List.Forall₂.cons ?_ List.Forall₂.nil
  rw [Array.toList_append]
  exact List.prefix_append _ _

end Discovery
end DexCensus
