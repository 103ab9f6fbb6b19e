/-
Which tests classes inherit, by name.

A definition declares a test if one of its virtual methods is marked.  The
name of a test is built again at each class it is moved to, by cutting the old
name at its first separator.  If no class name has a separator in it, the cut
always gives the name of the method, so a concrete class runs just the tests
that it or one of its ancestors declares, under its own name.
-/

import DexCensus.Proofs.JUnit4.Cycle
import DexCensus.Proofs.JUnit4.Rehoming

namespace DexCensus
namespace JUnit4

open Dex

variable {markers : List String}

/-- A virtual method of a definition with a pair in the directory of the class
and a marker among the annotations of the class and of the method. -/
structure MarksMethod (markers : List String) (definition : Definition)
    (directory : Directory) (entries : List TestAnnotation)
    (method : UInt32) : Prop where
  virtual : ∃ methods,
    definition.segment.virtualMethodIndices definition.classDef =
      .ok methods ∧ method ∈ methods
  listed : directory.hasMethod method = true
  marked : ∃ own,
    definition.segment.methodAnnotations method (some directory) = .ok own ∧
    ∃ entry ∈ entries ++ own, isMarker markers entry.name = true

def DeclaresTest (markers : List String) (definition : Definition)
    (methodName : String) : Prop :=
  ∃ directory entries method,
    definition.segment.directory? definition.classDef =
      .ok (some directory) ∧
    definition.segment.classAnnotations (some directory) = .ok entries ∧
    MarksMethod markers definition directory entries method ∧
    definition.segment.methodName method = .ok methodName

theorem markedTest?_eq_some_iff (segment : IndexedSegment)
    (directory : Directory) (className : String)
    (entries : List TestAnnotation) (method : UInt32) (test : TestMethod) :
    markedTest? markers segment directory className entries method =
        .ok (some test) ↔
      directory.hasMethod method = true ∧ ∃ own methodName,
        segment.methodAnnotations method (some directory) = .ok own ∧
        (∃ entry ∈ entries ++ own, isMarker markers entry.name = true) ∧
        segment.methodName method = .ok methodName ∧
        test = { testName := TestName.ofParts className methodName
                 annotations := entries ++ own } := by
  unfold markedTest?
  by_cases listed : directory.hasMethod method = true
  · rw [if_pos listed, bind_eq_ok_iff]
    constructor
    · intro ⟨own, read, found⟩
      by_cases marked : ((entries ++ own).any fun entry =>
          isMarker markers entry.name) = true
      · rw [if_pos marked, bind_eq_ok_iff] at found
        obtain ⟨methodName, named, whole⟩ := found
        cases whole
        exact ⟨listed, own, methodName, read, List.any_eq_true.mp marked,
          named, rfl⟩
      · rw [if_neg marked] at found
        cases found
    · intro ⟨_, own, methodName, read, marked, named, whole⟩
      refine ⟨own, read, ?_⟩
      rw [if_pos (List.any_eq_true.mpr marked), whole]
      exact bind_eq_ok_iff.mpr ⟨methodName, named, rfl⟩
  · rw [if_neg listed]
    constructor
    · intro impossible
      cases impossible
    · intro ⟨impossible, _⟩
      exact (listed impossible).elim

theorem Summarizes.mem_test_names_iff {definition : Definition}
    {summary : ClassSummary}
    (summarizes : Summarizes markers definition summary) (testName : String) :
    testName ∈ summary.tests.map TestMethod.testName ↔
      ∃ methodName, DeclaresTest markers definition methodName ∧
        testName = TestName.ofParts summary.name methodName := by
  obtain ⟨directory?, read, resolved, listed⟩ := summarizes.contents
  rw [List.mem_map]
  cases directory? with
  | none =>
      have noTests : summary.tests = [] := (Except.ok.inj listed).symm
      constructor
      · intro ⟨test, impossible, _⟩
        rw [noTests] at impossible
        exact (List.not_mem_nil impossible).elim
      · intro ⟨methodName, ⟨directory, _, _, otherRead, _⟩, _⟩
        rw [read] at otherRead
        cases otherRead
  | some directory =>
      obtain ⟨methods, virtual, marked⟩ := bind_eq_ok_iff.mp listed
      obtain ⟨found, examined, whole⟩ := bind_eq_ok_iff.mp marked
      have tests : summary.tests = appendNew [] (found.filterMap id) :=
        (Except.ok.inj whole).symm
      have isTest (test : TestMethod) : test ∈ summary.tests ↔
          ∃ method ∈ methods, markedTest? markers definition.segment directory
            summary.name summary.annotations method = .ok (some test) := by
        rw [tests, mem_appendNew_iff, List.mem_filterMap]
        simp only [List.not_mem_nil, false_or, id_eq, exists_eq_right]
        exact mem_of_mapM_eq_ok examined (some test)
      constructor
      · intro ⟨test, member, named⟩
        obtain ⟨method, isVirtual, found⟩ := (isTest test).mp member
        obtain ⟨inDirectory, own, methodName, readOwn, marker, methodNamed,
          whole⟩ := (markedTest?_eq_some_iff _ _ _ _ _ _).mp found
        refine ⟨methodName, ⟨directory, summary.annotations, method, read,
          resolved, ?_, methodNamed⟩, ?_⟩
        · exact {
            virtual := ⟨methods, virtual, isVirtual⟩
            listed := inDirectory
            marked := ⟨own, readOwn, marker⟩ }
        · rw [← named, whole]
      · intro ⟨methodName, declares, named⟩
        obtain ⟨other, entries, method, otherRead, otherResolved, marks,
          methodNamed⟩ := declares
        cases Except.ok.inj (read.symm.trans otherRead)
        cases Except.ok.inj (resolved.symm.trans otherResolved)
        obtain ⟨others, otherVirtual, isVirtual⟩ := marks.virtual
        cases Except.ok.inj (virtual.symm.trans otherVirtual)
        obtain ⟨own, readOwn, marker⟩ := marks.marked
        refine ⟨_, (isTest _).mpr ⟨method, isVirtual,
          (markedTest?_eq_some_iff _ _ _ _ _ _).mpr ⟨marks.listed, own,
            methodName, readOwn, marker, methodNamed, rfl⟩⟩, named.symm⟩

/-- No class name of a table has a separator in it, and own tests carry the
name of their class. -/
structure WellNamed (table : ClassTable) : Prop where
  plain : ∀ position,
    TestName.separator ∉ (table.get position).name.toList
  ownPrefix : ∀ position, ∀ test ∈ (table.get position).tests,
    ∃ methodName,
      test.testName = TestName.ofParts (table.get position).name methodName

section Table

variable {table : ClassTable} (acyclic : table.Acyclic)

theorem mem_complete_names_of_ancestor (wellNamed : WellNamed table)
    {ancestor position : Fin table.size}
    (line : Relation.ReflTransGen table.IsParent ancestor position)
    {methodName : String}
    (own : TestName.ofParts (table.get ancestor).name methodName ∈
      (table.get ancestor).tests.map TestMethod.testName) :
    TestName.ofParts (table.get position).name methodName ∈
      (complete table acyclic position).map TestMethod.testName := by
  induction line with
  | refl =>
      obtain ⟨test, member, named⟩ := List.mem_map.mp own
      exact List.mem_map.mpr ⟨test, mem_complete_of_own acyclic member, named⟩
  | @tail parent child _ edge ih =>
      obtain ⟨test, member, named⟩ := List.mem_map.mp ih
      refine List.mem_map.mpr ⟨_, rehome_mem_complete acyclic edge member, ?_⟩
      rw [rehome, named, TestName.methodPart_ofParts (wellNamed.plain parent)]

/-- Every complete test has the name of its class and that of a method whose
test is an ancestor's own.  The induction goes down from the ancestors; what
is moved on has a name of this form already. -/
theorem ancestor_of_mem_complete (wellNamed : WellNamed table)
    (position : Fin table.size) :
    ∀ test ∈ complete table acyclic position, ∃ ancestor methodName,
      Relation.ReflTransGen table.IsParent ancestor position ∧
      TestName.ofParts (table.get ancestor).name methodName ∈
        (table.get ancestor).tests.map TestMethod.testName ∧
      test.testName =
        TestName.ofParts (table.get position).name methodName := by
  induction position using acyclic.wellFounded.induction with
  | _ position ih =>
      intro test member
      rcases own_or_rehomed_of_mem_complete acyclic member with
        own | ⟨parent, edge, moved, inherited, rfl⟩
      · obtain ⟨methodName, named⟩ := wellNamed.ownPrefix position test own
        refine ⟨position, methodName, Relation.ReflTransGen.refl, ?_, named⟩
        exact List.mem_map.mpr ⟨test, own, named⟩
      · obtain ⟨ancestor, methodName, line, own, named⟩ :=
          ih parent edge moved inherited
        refine ⟨ancestor, methodName, line.tail edge, own, ?_⟩
        rw [rehome, named, TestName.methodPart_ofParts (wellNamed.plain parent)]

theorem mem_concreteTests_iff (test : TestMethod) :
    test ∈ concreteTests table acyclic ↔
      ∃ position, (table.get position).isConcrete = true ∧
        test ∈ complete table acyclic position := by
  simp only [concreteTests, List.mem_flatMap, List.mem_filter,
    List.mem_finRange, true_and]

end Table

/-! ### Whole packages -/

/-- What is found in a package is what is complete for the concrete classes of
its survey, which has to end well and to be acyclic. -/
theorem findTests_eq_ok_iff (segments : List IndexedSegment)
    (tests : List TestMethod) :
    findTests markers segments = .ok tests ↔
      ∃ survey, Survey.ofSegments markers segments = (survey, none) ∧
        ∃ acyclic : survey.table.Acyclic,
          tests = concreteTests survey.table acyclic := by
  unfold findTests discover
  rcases Survey.ofSegments markers segments with ⟨survey, none | error⟩
  · simp only [testsOfSurvey]
    rcases harvest_cases survey.table with
      ⟨_, acyclic⟩ | ⟨position, failed, cycle⟩
    · rw [harvest_eq acyclic]
      constructor
      · intro found
        exact ⟨survey, rfl, acyclic, (Except.ok.inj found).symm⟩
      · rintro ⟨other, same, otherAcyclic, found⟩
        cases same
        rw [found]
    · rw [failed]
      constructor
      · intro impossible
        cases impossible
      · rintro ⟨other, same, acyclic, _⟩
        cases same
        exact (acyclic position cycle).elim
  · constructor
    · intro impossible
      cases impossible
    · rintro ⟨other, same, _⟩
      cases same

def PlainNames (definitions : List Definition) : Prop :=
  ∀ definition ∈ definitions, ∀ name, HasName definition name →
    TestName.separator ∉ name.toList

theorem Represents.wellNamed {table : ClassTable}
    {definitions : List Definition}
    (represents : Represents markers table definitions)
    (plain : PlainNames definitions) : WellNamed table := by
  constructor
  case plain =>
    intro position
    obtain ⟨definition, stands⟩ := represents.exists_definition position
    exact plain definition stands.kept.mem _ stands.summarizes.name
  case ownPrefix =>
    intro position test member
    obtain ⟨definition, stands⟩ := represents.exists_definition position
    obtain ⟨methodName, _, named⟩ :=
      (stands.summarizes.mem_test_names_iff test.testName).mp
        (List.mem_map_of_mem member)
    exact ⟨methodName, named⟩

/-- A concrete kept class of a package runs the test of a simple name: the
class itself or an ancestor of it declares the test. -/
structure RunsTest (markers : List String) (definitions : List Definition)
    (definition : Definition) (methodName : String) : Prop where
  kept : Kept definitions definition
  notAbstract : definition.classDef.isAbstract = false
  notInterface : definition.classDef.isInterface = false
  declared : ∃ declaring,
    Relation.ReflTransGen (KeptParent definitions) declaring definition ∧
    DeclaresTest markers declaring methodName

private theorem isConcrete_eq_true_iff (classDef : ClassDef) :
    classDef.isConcrete = true ↔
      classDef.isAbstract = false ∧ classDef.isInterface = false := by
  simp [ClassDef.isConcrete]

theorem Represents.mem_concreteTests_names_iff {table : ClassTable}
    {definitions : List Definition}
    (represents : Represents markers table definitions)
    (acyclic : table.Acyclic) (plain : PlainNames definitions)
    (testName : String) :
    testName ∈ (concreteTests table acyclic).map TestMethod.testName ↔
      ∃ definition name methodName,
        RunsTest markers definitions definition methodName ∧
        HasName definition name ∧
        testName = TestName.ofParts name methodName := by
  have wellNamed := represents.wellNamed plain
  rw [List.mem_map]
  constructor
  · intro ⟨test, member, named⟩
    obtain ⟨position, concrete, inComplete⟩ :=
      (mem_concreteTests_iff acyclic test).mp member
    obtain ⟨ancestor, methodName, line, own, builtName⟩ :=
      ancestor_of_mem_complete acyclic wellNamed position test inComplete
    obtain ⟨definition, stands⟩ := represents.exists_definition position
    obtain ⟨declaring, standsAbove⟩ := represents.exists_definition ancestor
    -- The own test of the ancestor tells the same method as the name built.
    obtain ⟨otherName, declares, same⟩ :=
      (standsAbove.summarizes.mem_test_names_iff _).mp own
    obtain ⟨_, sameMethod⟩ := TestName.ofParts_inj (wellNamed.plain ancestor)
      (wellNamed.plain ancestor) same
    rw [stands.summarizes.isConcrete, isConcrete_eq_true_iff] at concrete
    refine ⟨definition, _, methodName, ?_, stands.summarizes.name,
      named ▸ builtName⟩
    exact {
      kept := stands.kept
      notAbstract := concrete.1
      notInterface := concrete.2
      declared := ⟨declaring,
        (represents.ancestor_or_self_iff standsAbove stands).mp line,
        sameMethod ▸ declares⟩ }
  · intro ⟨definition, name, methodName, runs, named, builtName⟩
    obtain ⟨declaring, line, declares⟩ := runs.declared
    obtain ⟨position, stands⟩ := represents.exists_position runs.kept
    have declaringKept : Kept definitions declaring := by
      rcases Relation.ReflTransGen.cases_head line with rfl | ⟨_, edge, _⟩
      · exact runs.kept
      · exact edge.parentKept
    obtain ⟨ancestor, standsAbove⟩ := represents.exists_position declaringKept
    have own := (standsAbove.summarizes.mem_test_names_iff _).mpr
      ⟨methodName, declares, rfl⟩
    have inherited := mem_complete_names_of_ancestor acyclic wellNamed
      ((represents.ancestor_or_self_iff standsAbove stands).mpr line) own
    obtain ⟨test, member, testNamed⟩ := List.mem_map.mp inherited
    refine ⟨test, (mem_concreteTests_iff acyclic test).mpr
      ⟨position, ?_, member⟩, ?_⟩
    · rw [stands.summarizes.isConcrete, isConcrete_eq_true_iff]
      exact ⟨runs.notAbstract, runs.notInterface⟩
    · rw [testNamed, builtName, stands.summarizes.name.unique named]

/-- No test is lost, invented or attributed to the wrong class.  If no class
name has a separator in it, the names that are found are those of the tests
that the concrete classes declare or inherit, each under the name of the class
that runs it; none starts with the name of an abstract class. -/
theorem findTests_names_exact (segments : List IndexedSegment)
    (plain : PlainNames (classDefinitions segments))
    {tests : List TestMethod}
    (found : findTests markers segments = .ok tests) :
    (∀ testName, testName ∈ tests.map TestMethod.testName ↔
      ∃ definition name methodName,
        RunsTest markers (classDefinitions segments) definition methodName ∧
        HasName definition name ∧
        testName = TestName.ofParts name methodName) ∧
    (∀ definition name, Kept (classDefinitions segments) definition →
      HasName definition name → definition.classDef.isAbstract = true →
      ∀ testName ∈ tests.map TestMethod.testName,
        ¬ name.toList ++ [TestName.separator] <+: testName.toList) := by
  obtain ⟨survey, surveyed, acyclic, rfl⟩ :=
    (findTests_eq_ok_iff segments tests).mp found
  have represents := Survey.represents_of_ofSegments surveyed
  have exact := represents.mem_concreteTests_names_iff acyclic plain
  refine ⟨exact, ?_⟩
  intro definition name kept named isAbstract testName member starts
  obtain ⟨runner, runnerName, methodName, runs, runnerNamed, builtName⟩ :=
    (exact testName).mp member
  obtain ⟨rest, split⟩ := TestName.exists_ofParts_of_startsWith starts
  obtain ⟨sameName, _⟩ := TestName.ofParts_inj
    (plain runner runs.kept.mem runnerName runnerNamed)
    (plain definition kept.mem name named) (builtName.symm.trans split)
  have same : runner = definition :=
    runs.kept.unique kept (sameName ▸ runnerNamed) named
  rw [← same, runs.notAbstract] at isAbstract
  cases isAbstract

/-! ### A class that inherits from an abstract one in a later segment -/

/-- The strings `LDerived;`, `LBase;`, `LRoot;`, `Lorg/junit/Test;` and
`starts`, then the class data of a class with the virtual method `starts`, its
directory, and the set with the one annotation of the method. -/
def markedBytes : Bytes :=
  #[9, 0x4c, 0x44, 0x65, 0x72, 0x69, 0x76, 0x65, 0x64, 0x3b, 0,
    6, 0x4c, 0x42, 0x61, 0x73, 0x65, 0x3b, 0,
    6, 0x4c, 0x52, 0x6f, 0x6f, 0x74, 0x3b, 0,
    16, 0x4c, 0x6f, 0x72, 0x67, 0x2f, 0x6a, 0x75, 0x6e, 0x69, 0x74, 0x2f,
    0x54, 0x65, 0x73, 0x74, 0x3b, 0,
    6, 0x73, 0x74, 0x61, 0x72, 0x74, 0x73, 0,
    0, 0, 0, 1, 0, 1, 0,
    0, 0, 0, 0, 0, 0, 0, 0, 1, 0, 0, 0, 0, 0, 0, 0,
    0, 0, 0, 0, 84, 0, 0, 0,
    1, 0, 0, 0, 92, 0, 0, 0,
    1, 3, 0]

def markedSegment (classDefs : Array ClassDef) : Segment :=
  { header := blankHeader
    strings := #[0, 11, 19, 27, 45]
    types := #[0, 1, 2, 3]
    prototypes := #[]
    fields := #[]
    methods := #[{ classType := 1, proto := 0, name := 4 }]
    classDefs := classDefs
    data := markedBytes }

def abstractBase : ClassDef :=
  { bareClass 1 2 with
    accessFlags := 0x401
    annotationsOffset := 60
    classDataOffset := 53 }

def derivedPart : IndexedSegment :=
  (markedSegment #[bareClass 0 1]).indexed

def basePart : IndexedSegment :=
  (markedSegment #[abstractBase]).indexed

def derivedClass : Definition :=
  { segmentNumber := 1, segment := derivedPart, classDef := bareClass 0 1 }

def baseClass : Definition :=
  { segmentNumber := 2, segment := basePart, classDef := abstractBase }

theorem derivedFirst_definitions :
    classDefinitions [derivedPart, basePart] = [derivedClass, baseClass] := by
  rfl

theorem markedSegment_typeDescriptor (classDefs : Array ClassDef) :
    (markedSegment classDefs).typeDescriptor 0 = .ok "LDerived;" ∧
    (markedSegment classDefs).typeDescriptor 1 = .ok "LBase;" ∧
    (markedSegment classDefs).typeDescriptor 2 = .ok "LRoot;" ∧
    (markedSegment classDefs).typeDescriptor 3 = .ok "Lorg/junit/Test;" := by
  have described (index offset length : UInt32) (start : Nat) (text : String)
      (listed : Segment.entry .types (markedSegment classDefs).types index =
        .ok index)
      (found : Segment.entry .strings (markedSegment classDefs).strings
        index = .ok offset)
      (counted : Reader.uleb128 markedBytes offset.toNat = .ok (length, start))
      (stands : text.toList.map plainByte ++ [0] <+:
        markedBytes.toList.drop start)
      (plain : IsPlain text.toList) :
      (markedSegment classDefs).typeDescriptor index = .ok text :=
    typeDescriptor_of_plain listed found counted stands plain
  exact ⟨described 0 0 9 1 _ rfl rfl rfl (by decide) (by decide),
    described 1 11 6 12 _ rfl rfl rfl (by decide) (by decide),
    described 2 19 6 20 _ rfl rfl rfl (by decide) (by decide),
    described 3 27 16 28 _ rfl rfl rfl (by decide) (by decide)⟩

theorem derivedClass_named :
    HasName derivedClass "Derived" ∧ HasSuperclassName derivedClass "Base" := by
  obtain ⟨first, second, _⟩ := markedSegment_typeDescriptor #[bareClass 0 1]
  have superclassNamed : (markedSegment #[bareClass 0 1]).className 1 =
      .ok "Base" :=
    bind_eq_ok_iff.mpr ⟨_, second, by decide⟩
  exact ⟨bind_eq_ok_iff.mpr ⟨_, first, by decide⟩,
    hasSuperclassName_of_type 1 rfl superclassNamed⟩

theorem baseClass_named :
    HasName baseClass "Base" ∧ HasSuperclassName baseClass "Root" := by
  obtain ⟨_, second, third, _⟩ := markedSegment_typeDescriptor #[abstractBase]
  have superclassNamed : (markedSegment #[abstractBase]).className 2 =
      .ok "Root" :=
    bind_eq_ok_iff.mpr ⟨_, third, by decide⟩
  exact ⟨bind_eq_ok_iff.mpr ⟨_, second, by decide⟩,
    hasSuperclassName_of_type 2 rfl superclassNamed⟩

def baseDirectory : Directory :=
  { classOffset := 0
    fields := []
    methods := [{ member := 0, offset := 84 }]
    parameters := [] }

def markerEntry : TestAnnotation :=
  { name := "org.junit.Test", values := [], inherited := false }

theorem markerAmong_eq_none {segment : Segment} {indices : List Nat}
    (others : ∀ index ∈ indices, ∃ descriptor,
      segment.typeDescriptor (UInt32.ofNat index) = .ok descriptor ∧
      descriptor ≠ inheritedDescriptor) :
    segment.markerAmong indices = .ok none := by
  induction indices with
  | nil => rfl
  | cons index rest ih =>
      obtain ⟨⟨descriptor, read, differs⟩, restOthers⟩ :=
        List.forall_mem_cons.mp others
      rw [Segment.markerAmong, read]
      simp only [if_neg differs]
      exact ih restOthers

private theorem basePart_noMarker : basePart.marker.get = .ok none := by
  obtain ⟨first, second, third, fourth⟩ :=
    markedSegment_typeDescriptor #[abstractBase]
  rw [basePart.marker_get]
  apply markerAmong_eq_none
  have allTypes : List.range basePart.types.size = [0, 1, 2, 3] := rfl
  rw [allTypes]
  simp only [List.forall_mem_cons]
  exact ⟨⟨_, first, by decide⟩, ⟨_, second, by decide⟩,
    ⟨_, third, by decide⟩, ⟨_, fourth, by decide⟩, by simp⟩

theorem basePart_methodAnnotations :
    basePart.methodAnnotations 0 (some baseDirectory) =
      .ok [markerEntry] := by
  obtain ⟨_, _, _, fourth⟩ := markedSegment_typeDescriptor #[abstractBase]
  have notInherited : basePart.isInherited 3 = .ok false :=
    bind_eq_ok_iff.mpr ⟨none, basePart_noMarker, rfl⟩
  have named : basePart.className 3 = .ok "org.junit.Test" :=
    bind_eq_ok_iff.mpr ⟨_, fourth, by decide⟩
  have read : itemsAt markedBytes 84 =
      .ok [{ visibility := 1, payload := { type := 3, elements := [] } }] := by
    rfl
  have resolved : basePart.resolveItem
      { visibility := 1, payload := { type := 3, elements := [] } } =
        .ok markerEntry := by
    refine bind_eq_ok_iff.mpr ⟨_, named, ?_⟩
    refine bind_eq_ok_iff.mpr ⟨[], rfl, ?_⟩
    exact bind_eq_ok_iff.mpr ⟨false, notInherited, rfl⟩
  refine bind_eq_ok_iff.mpr ⟨_, read, ?_⟩
  exact mapM_eq_ok_iff.mpr (List.Forall₂.cons resolved List.Forall₂.nil)

theorem basePart_methodName : basePart.methodName 0 = .ok "starts" := by
  have listed : Segment.entry .strings basePart.strings 4 = .ok 45 := rfl
  have counted : Reader.uleb128 markedBytes 45 = .ok (6, 46) := rfl
  have read : basePart.string 4 = .ok "starts" :=
    string_of_plain listed counted (by decide) (by decide)
  exact bind_eq_ok_iff.mpr ⟨_, rfl, read⟩

private theorem baseClass_declares : DeclaresTest [] baseClass "starts" := by
  refine ⟨baseDirectory, [], 0, rfl, rfl, ?_, basePart_methodName⟩
  exact {
    virtual := ⟨[0], rfl, by simp⟩
    listed := by decide
    marked := ⟨_, basePart_methodAnnotations, markerEntry, by simp,
      by decide⟩ }

private theorem baseClass_summarized :
    ∃ summary, summarize [] baseClass = .ok summary := by
  have marked : markedTest? [] basePart baseDirectory "Base" [] 0 =
      .ok (some { testName := "Base#starts", annotations := [markerEntry] }) :=
    (markedTest?_eq_some_iff _ _ _ _ _ _).mpr
      ⟨by decide, _, _, basePart_methodAnnotations,
        ⟨markerEntry, by simp, by decide⟩, basePart_methodName, by decide⟩
  have tests : ownTests [] basePart abstractBase (some baseDirectory) "Base"
      [] = .ok [{ testName := "Base#starts", annotations := [markerEntry] }] := by
    refine bind_eq_ok_iff.mpr ⟨[0], rfl, ?_⟩
    refine bind_eq_ok_iff.mpr ⟨_, mapM_eq_ok_iff.mpr
      (List.Forall₂.cons marked List.Forall₂.nil), ?_⟩
    rfl
  have summarizes : Summarizes [] baseClass
      { name := "Base"
        segmentNumber := 2
        classType := 1
        superclassName := some "Root"
        annotations := []
        tests := [{ testName := "Base#starts", annotations := [markerEntry] }]
        isConcrete := false } :=
    { name := baseClass_named.1
      segmentNumber := rfl
      classType := rfl
      superclassName := baseClass_named.2
      isConcrete := by decide
      contents := ⟨some baseDirectory, rfl, rfl, tests⟩ }
  exact ⟨_, (summarize_eq_ok_iff _ _).mpr summarizes⟩

private theorem derivedClass_summarized :
    ∃ summary, summarize [] derivedClass = .ok summary :=
  ⟨_, (summarize_eq_ok_iff _ _).mpr (summarizes_of_no_directory
    derivedClass_named.1 derivedClass_named.2 rfl)⟩

theorem derivedFirst_distinct :
    DistinctNames (classDefinitions [derivedPart, basePart]) := by
  rw [derivedFirst_definitions, DistinctNames, List.pairwise_pair]
  exact derivedClass_named.1.apart baseClass_named.1 (by decide)

theorem derivedFirst_plain :
    PlainNames (classDefinitions [derivedPart, basePart]) := by
  rw [derivedFirst_definitions, PlainNames, List.forall_mem_cons,
    List.forall_mem_singleton]
  constructor
  · intro name named
    rw [named.unique derivedClass_named.1]
    decide
  · intro name named
    rw [named.unique baseClass_named.1]
    decide

theorem baseParent :
    KeptParent (classDefinitions [derivedPart, basePart]) baseClass
      derivedClass :=
  { parentKept := derivedFirst_distinct.kept (by simp [derivedFirst_definitions])
    childKept := derivedFirst_distinct.kept (by simp [derivedFirst_definitions])
    named := ⟨"Base", baseClass_named.1, derivedClass_named.2⟩ }

theorem derivedClass_runs :
    RunsTest [] (classDefinitions [derivedPart, basePart]) derivedClass
      "starts" :=
  { kept := baseParent.childKept
    notAbstract := by decide
    notInterface := by decide
    declared := ⟨baseClass, Relation.ReflTransGen.single baseParent,
      baseClass_declares⟩ }

private theorem derivedFirst_edge {parent child : Definition}
    (edge : KeptParent (classDefinitions [derivedPart, basePart]) parent
      child) : parent = baseClass ∧ child = derivedClass := by
  obtain ⟨name, parentNamed, childNamed⟩ := edge.named
  have parentMember := edge.parentKept.mem
  have childMember := edge.childKept.mem
  rw [derivedFirst_definitions, List.mem_pair] at parentMember childMember
  rcases childMember with rfl | rfl
  · rw [childNamed.unique derivedClass_named.2] at parentNamed
    rcases parentMember with rfl | rfl
    · have clash := parentNamed.unique derivedClass_named.1
      exact absurd clash (by decide)
    · exact ⟨rfl, rfl⟩
  · rw [childNamed.unique baseClass_named.2] at parentNamed
    rcases parentMember with rfl | rfl
    · have clash := parentNamed.unique derivedClass_named.1
      exact absurd clash (by decide)
    · have clash := parentNamed.unique baseClass_named.1
      exact absurd clash (by decide)

theorem derivedFirst_found :
    ∃ tests, findTests [] [derivedPart, basePart] = .ok tests := by
  have readable : ∀ definition ∈ classDefinitions [derivedPart, basePart],
      ∃ summary, summarize [] definition = .ok summary := by
    rw [derivedFirst_definitions, List.forall_mem_cons,
      List.forall_mem_singleton]
    exact ⟨derivedClass_summarized, baseClass_summarized⟩
  refine findTests_of_one_generation readable ?_
  intro parent child grandchild first second
  have both : baseClass = derivedClass :=
    (derivedFirst_edge second).1.symm.trans (derivedFirst_edge first).2
  have clash := (both ▸ baseClass_named.1).unique derivedClass_named.1
  exact absurd clash (by decide)

/-- `Derived` runs the test that the abstract class `Base` declares, and
nothing is found under the name of `Base`. -/
theorem derivedFirst_inherits :
    ∃ tests, findTests [] [derivedPart, basePart] = .ok tests ∧
      "Derived#starts" ∈ tests.map TestMethod.testName ∧
      ∀ testName ∈ tests.map TestMethod.testName,
        ¬ "Base#".toList <+: testName.toList := by
  obtain ⟨tests, found⟩ := derivedFirst_found
  obtain ⟨exactly, noneAbstract⟩ := findTests_names_exact
    [derivedPart, basePart] derivedFirst_plain found
  refine ⟨tests, found, ?_, ?_⟩
  · exact (exactly "Derived#starts").mpr
      ⟨derivedClass, "Derived", "starts", derivedClass_runs,
        derivedClass_named.1, by decide⟩
  · exact noneAbstract baseClass "Base" baseParent.parentKept
      baseClass_named.1 (by decide)

end JUnit4
end DexCensus
