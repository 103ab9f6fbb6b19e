/-
What is found does not depend on how segments are arranged.

Both searches find the same tests in another order, and sorting by name undoes
the difference.  Only tests of one name could still stand in another order;
that takes two classes whose names differ in where the separator falls.
-/

import DexCensus.Discovery
import DexCensus.Proofs.Arrangement.JUnit3
import DexCensus.Proofs.Arrangement.JUnit4

namespace DexCensus
namespace Discovery

open Dex JUnit4

variable (markers : List String)

theorem tests_ofSegments (segments : List IndexedSegment) :
    (ofSegments markers segments).tests = do
      let junit3 ← JUnit3.findTests segments
      let junit4 ← JUnit4.findTests markers segments
      return merged junit3 junit4 := by
  unfold ofSegments
  cases JUnit3.findTests segments with
  | error error => rfl
  | ok junit3 =>
      change (JUnit4.discover markers segments).tests.map (merged junit3) = _
      unfold JUnit4.findTests
      cases (JUnit4.discover markers segments).tests with
      | error error => rfl
      | ok junit4 => rfl

theorem findMethods_eq_ok_iff (buffers : List Bytes)
    (tests : List TestMethod) :
    findMethods markers buffers = .ok tests ↔
      ∃ segments junit3 junit4, parseSegments buffers = .ok segments ∧
        JUnit3.findTests segments = .ok junit3 ∧
        JUnit4.findTests markers segments = .ok junit4 ∧
        tests = merged junit3 junit4 := by
  unfold findMethods ofBuffers
  cases parseSegments buffers with
  | error error => simp
  | ok segments =>
      simp only [tests_ofSegments, bind_eq_ok_iff, Except.ok.injEq,
        exists_and_left, exists_eq_left']
      constructor
      · rintro ⟨junit3, byName, junit4, byMarker, whole⟩
        exact ⟨junit3, byName, junit4, byMarker, (Except.ok.inj whole).symm⟩
      · rintro ⟨junit3, byName, junit4, byMarker, rfl⟩
        exact ⟨junit3, byName, junit4, byMarker, rfl⟩

private theorem merged_agree {plain : Prop}
    {junit3 junit3After junit4 junit4After : List TestMethod}
    (bare : JUnit3.SameBareTests junit3 junit3After)
    (same : JUnit4.SameTests plain junit4 junit4After) :
    (merged junit3 junit4).Perm (merged junit3After junit4After) ∧
    TestMethod.names (merged junit3 junit4) =
      TestMethod.names (merged junit3After junit4After) ∧
    (plain → merged junit3 junit4 = merged junit3After junit4After) := by
  have perm := bare.perm.append same.perm
  refine ⟨?_, TestMethod.names_sortedByName_eq_of_perm perm, ?_⟩
  · exact ((TestMethod.sortedByName_perm _).trans perm).trans
      (TestMethod.sortedByName_perm _).symm
  · intro isPlain
    apply TestMethod.sortedByName_eq_of_ofName_eq
    intro name
    rw [TestMethod.ofName_append, TestMethod.ofName_append, bare.ofName_eq,
      same.ofName isPlain]

private theorem ofSegments_follows {left right : List IndexedSegment}
    (correspond : Correspond (Definition.ofSegments left)
      (Definition.ofSegments right))
    (agree : AgreeByName (classDefinitions left)) :
    Follows (fun before after => before.Perm after ∧
        TestMethod.names before = TestMethod.names after ∧
        (PlainNames (classDefinitions left) → before = after))
      (ofSegments markers left).tests (ofSegments markers right).tests := by
  rw [tests_ofSegments, tests_ofSegments]
  apply (JUnit3.findTests_follows correspond).bind
  intro junit3 junit3After bare
  have classesCorrespond : Correspond (classDefinitions left)
      (classDefinitions right) :=
    correspond.filter fun classDef => !classDef.isInterface
  apply (JUnit4.findTests_follows agree classesCorrespond).bind
  intro junit4 junit4After same
  exact Follows.ok (merged_agree bare same)

/-- The result does not depend on the order of segments or of class
definitions.  If no name is defined twice and no segment defines a type twice,
discovery succeeds on one arrangement exactly if it does on the other; it then
finds the same tests with the same names, and if no class name has a separator
in it, it finds them in the same order. -/
theorem ofSegments_rearranged {left right : List IndexedSegment}
    (rearranged : Rearranged left right)
    (distinctTypes : ∀ segment ∈ left,
      (segment.classDefs.toList.map ClassDef.classType).Nodup)
    (distinctNames : DistinctNames (classDefinitions left)) :
    ((∃ tests, (ofSegments markers left).tests = .ok tests) ↔
      ∃ tests, (ofSegments markers right).tests = .ok tests) ∧
    ∀ leftTests rightTests,
      (ofSegments markers left).tests = .ok leftTests →
      (ofSegments markers right).tests = .ok rightTests →
      leftTests.Perm rightTests ∧
      TestMethod.names leftTests = TestMethod.names rightTests ∧
      (PlainNames (classDefinitions left) → leftTests = rightTests) := by
  have correspond := rearranged.correspond distinctTypes
  have reflexive : ∀ definition ∈ classDefinitions left,
      definition.Alike definition := by
    intro definition member
    have inAll := (List.mem_filter.mp member).1
    obtain ⟨other, _, alike⟩ := correspond.forward definition inAll
    exact alike.trans alike.symm
  have agree := distinctNames.agreeByName reflexive
  have follows := ofSegments_follows markers correspond agree
  have classesCorrespond : Correspond (classDefinitions left)
      (classDefinitions right) :=
    correspond.filter fun classDef => !classDef.isInterface
  have followsBack := ofSegments_follows markers correspond.symm
    (agree.correspond classesCorrespond)
  constructor
  · constructor
    · intro ⟨tests, found⟩
      obtain ⟨others, foundRight, _⟩ := follows tests found
      exact ⟨others, foundRight⟩
    · intro ⟨tests, found⟩
      obtain ⟨others, foundLeft, _⟩ := followsBack tests found
      exact ⟨others, foundLeft⟩
  · intro leftTests rightTests foundLeft foundRight
    obtain ⟨others, found, holds⟩ := follows leftTests foundLeft
    rw [foundRight] at found
    cases found
    exact holds

/-! ### Three segments in two orders -/

def bareInterface (type : UInt32) : ClassDef :=
  { bareClass type noIndex with accessFlags := 0x200 }

/-- `Derived`, `Base`, and two interfaces in a segment of their own. -/
def threeParts : List IndexedSegment :=
  [derivedPart, basePart,
    (threeTypes #[bareInterface 0, bareInterface 1]).indexed]

def threePartsBackwards : List IndexedSegment :=
  [(threeTypes #[bareInterface 1, bareInterface 0]).indexed, basePart,
    derivedPart]

private theorem threeParts_rearranged :
    Rearranged threeParts threePartsBackwards := by
  refine ⟨threeParts.reverse, (List.reverse_perm threeParts).symm, ?_⟩
  have unchanged (segment : Segment) : segment.Reordered segment :=
    { rest := rfl, permuted := List.Perm.refl _ }
  refine List.Forall₂.cons ?_ (List.Forall₂.cons (unchanged _)
    (List.Forall₂.cons (unchanged _) List.Forall₂.nil))
  exact {
    rest := rfl
    permuted := List.Perm.swap _ _ _ }

private theorem threeParts_distinctTypes : ∀ segment ∈ threeParts,
    (segment.classDefs.toList.map ClassDef.classType).Nodup := by
  simp only [threeParts, List.forall_mem_cons]
  exact ⟨by decide, by decide, by decide, by simp⟩

theorem threeParts_classDefinitions :
    classDefinitions threeParts = classDefinitions [derivedPart, basePart] := by
  rfl

private theorem threeParts_distinctNames :
    DistinctNames (classDefinitions threeParts) := by
  rw [threeParts_classDefinitions]
  exact derivedFirst_distinct

private theorem threeParts_plain :
    PlainNames (classDefinitions threeParts) := by
  rw [threeParts_classDefinitions]
  exact derivedFirst_plain

theorem threeParts_superclasses :
    ∀ definition ∈ Definition.ofSegments threeParts, ∃ superclass,
      definition.segment.superclassDescriptor? definition.classDef =
        .ok superclass ∧
      ∀ descriptor ∈ superclass, descriptor ∉ JUnit3.platformBases := by
  have all : Definition.ofSegments threeParts =
      [derivedClass, baseClass,
        { segmentNumber := 3
          segment := (threeTypes #[bareInterface 0, bareInterface 1]).indexed
          classDef := bareInterface 0 },
        { segmentNumber := 3
          segment := (threeTypes #[bareInterface 0, bareInterface 1]).indexed
          classDef := bareInterface 1 }] := rfl
  obtain ⟨_, base, _, _⟩ := markedSegment_typeDescriptor #[bareClass 0 1]
  obtain ⟨_, _, root, _⟩ := markedSegment_typeDescriptor #[abstractBase]
  rw [all]
  simp only [List.forall_mem_cons]
  refine ⟨⟨some "LBase;", ?_, by decide⟩, ⟨some "LRoot;", ?_, by decide⟩,
    ⟨none, rfl, by decide⟩, ⟨none, rfl, by decide⟩, by simp⟩
  · exact bind_eq_ok_iff.mpr ⟨_, base, rfl⟩
  · exact bind_eq_ok_iff.mpr ⟨_, root, rfl⟩

private theorem threeParts_noTestClass {definition : Definition}
    (member : JUnit3.TestClass (Definition.ofSegments threeParts)
      definition) : False := by
  induction member with
  | seed inAll known ofPlatform =>
      obtain ⟨superclass, read, noBase⟩ := threeParts_superclasses _ inAll
      cases Except.ok.inj (read.symm.trans known)
      exact noBase _ rfl ofPlatform
  | step _ _ _ _ impossible => exact impossible

private theorem threeParts_found : ∃ tests,
    (ofSegments [] threeParts).tests = .ok tests ∧
      "Derived#starts" ∈ tests.map TestMethod.testName := by
  have readable :
      ¬ JUnit3.Unreadable (Definition.ofSegments threeParts) := by
    rintro (⟨definition, inAll, fault, failed⟩ | ⟨definition, member, _⟩)
    · obtain ⟨superclass, read, _⟩ := threeParts_superclasses _ inAll
      rw [read] at failed
      cases failed
    · exact threeParts_noTestClass member
  obtain ⟨junit3, foundBare⟩ := JUnit3.findTests_of_readable readable
  obtain ⟨junit4, found⟩ := derivedFirst_found
  have surveysSame : Survey.ofSegments [] threeParts =
      Survey.ofSegments [] [derivedPart, basePart] :=
    congrArg (Survey.empty.extend []) threeParts_classDefinitions
  have foundMarked : JUnit4.findTests [] threeParts = .ok junit4 := by
    rw [JUnit4.findTests, JUnit4.discover, surveysSame]
    exact found
  obtain ⟨survey, surveyed, acyclic, rfl⟩ :=
    (findTests_eq_ok_iff _ _).mp found
  have represents := Survey.represents_of_ofSegments surveyed
  have inherited := (represents.mem_concreteTests_names_iff acyclic
    derivedFirst_plain "Derived#starts").mpr
      ⟨derivedClass, "Derived", "starts", derivedClass_runs,
        derivedClass_named.1, by decide⟩
  refine ⟨merged junit3 (concreteTests survey.table acyclic), ?_, ?_⟩
  · rw [tests_ofSegments, foundBare, foundMarked]
    rfl
  · have perm := (TestMethod.sortedByName_perm
      (junit3 ++ concreteTests survey.table acyclic)).map TestMethod.testName
    refine perm.mem_iff.mpr ?_
    rw [List.map_append]
    exact List.mem_append_right _ inherited

/-- Discovery finds the inherited test whichever of the segments comes first,
and the lists are equal. -/
theorem threeParts_backwards : ∃ tests,
    (ofSegments [] threeParts).tests = .ok tests ∧
    (ofSegments [] threePartsBackwards).tests = .ok tests ∧
    "Derived#starts" ∈ tests.map TestMethod.testName := by
  obtain ⟨succeeds, agree⟩ := ofSegments_rearranged [] threeParts_rearranged
    threeParts_distinctTypes threeParts_distinctNames
  obtain ⟨tests, found, inherited⟩ := threeParts_found
  obtain ⟨others, foundBackwards⟩ := succeeds.mp ⟨tests, found⟩
  obtain ⟨_, _, equal⟩ := agree tests others found foundBackwards
  have same := equal threeParts_plain
  exact ⟨tests, found, same ▸ foundBackwards, inherited⟩

end Discovery
end DexCensus
