/-
JUnit3 discovery in rearranged segments.

The least set of test classes and the tests of each one do not mention the
order of the definitions, and a search lists the tests of all test classes
once.  What an order can change is the order of the list.
-/

import DexCensus.Proofs.Arrangement.Definition
import DexCensus.Proofs.JUnit3.Closure
import DexCensus.Proofs.NameOrder

namespace DexCensus
namespace JUnit3

open Dex

section Alike

variable {left right : Definition}

theorem HasSuperclass.alike {descriptor : String}
    (known : HasSuperclass left descriptor) (alike : left.Alike right) :
    HasSuperclass right descriptor :=
  (alike.same Segment.superclassDescriptor? fun _ _ => rfl).trans known

theorem HasDescriptor.alike {descriptor : String}
    (described : HasDescriptor left descriptor) (alike : left.Alike right) :
    HasDescriptor right descriptor :=
  (alike.same Segment.classDescriptor fun _ _ => rfl).trans described

theorem HasTest.alike {test : String} (hasTest : HasTest left test)
    (alike : left.Alike right) : HasTest right test := by
  have sameMembers := alike.same Segment.classData fun _ _ => rfl
  have sameName := alike.segment.reordered.same Segment.methodName
    fun _ _ => rfl
  obtain ⟨descriptor, path, members, method, name, described, whole, given,
    listed, named, isTest⟩ := hasTest
  refine ⟨descriptor, path, members, method, name, described.alike alike,
    whole, sameMembers.trans given, listed, ?_, isTest⟩
  rw [sameName]
  exact named

theorem Broken.alike (broken : Broken left) (alike : left.Alike right) :
    Broken right := by
  have sameDescriptor := alike.same Segment.classDescriptor fun _ _ => rfl
  have sameMembers := alike.same Segment.classData fun _ _ => rfl
  have sameName := alike.segment.reordered.same Segment.methodName
    fun _ _ => rfl
  unfold Broken HasDescriptor at broken ⊢
  rw [sameDescriptor, sameMembers, sameName]
  exact broken

end Alike

variable {before after : List Definition}

theorem TestClass.correspond (correspond : Correspond before after)
    {definition : Definition} (member : TestClass before definition) :
    ∀ other ∈ after, definition.Alike other → TestClass after other := by
  induction member with
  | seed _ known ofPlatform =>
      intro other inAfter alike
      exact TestClass.seed inAfter (known.alike alike) ofPlatform
  | step _ known base described ih =>
      intro other inAfter alike
      obtain ⟨otherBase, otherMember, baseAlike⟩ :=
        correspond.forward _ base.mem
      exact TestClass.step inAfter (known.alike alike)
        (ih otherBase otherMember baseAlike) (described.alike baseAlike)

theorem exists_alike_testClass (correspond : Correspond before after)
    {definition : Definition} (member : TestClass before definition) :
    ∃ other, TestClass after other ∧ definition.Alike other := by
  obtain ⟨other, inAfter, alike⟩ := correspond.forward definition member.mem
  exact ⟨other, member.correspond correspond other inAfter alike, alike⟩

theorem Unreadable.correspond (correspond : Correspond before after)
    (unreadable : Unreadable before) : Unreadable after := by
  rcases unreadable with ⟨definition, inBefore, fault, failed⟩ |
    ⟨definition, member, broken⟩
  · obtain ⟨other, inAfter, alike⟩ := correspond.forward definition inBefore
    have same := alike.same Segment.superclassDescriptor? fun _ _ => rfl
    exact Or.inl ⟨other, inAfter, fault, same.trans failed⟩
  · obtain ⟨other, otherMember, alike⟩ :=
      exists_alike_testClass correspond member
    exact Or.inr ⟨other, otherMember, broken.alike alike⟩

theorem DefinesTest.correspond (correspond : Correspond before after)
    {test : String} (defines : DefinesTest before test) :
    DefinesTest after test := by
  obtain ⟨definition, member, hasTest⟩ := defines
  obtain ⟨other, otherMember, alike⟩ :=
    exists_alike_testClass correspond member
  exact ⟨other, otherMember, hasTest.alike alike⟩

/-- The same tests in some order, all of them without annotations. -/
structure SameBareTests (before after : List TestMethod) : Prop where
  perm : before.Perm after
  bare : ∀ test ∈ before, test.annotations = []

theorem findTests_follows {left right : List IndexedSegment}
    (correspond : Correspond (Definition.ofSegments left)
      (Definition.ofSegments right)) :
    Follows SameBareTests (findTests left) (findTests right) := by
  rcases findTests_cases left with ⟨tests, found, readable, once, mem_iff⟩ |
    ⟨error, failed, _⟩
  · rcases findTests_cases right with
      ⟨others, foundRight, _, onceRight, mem_others_iff⟩ | ⟨_, _, _, stops⟩
    · rw [found, foundRight]
      apply Follows.ok
      refine ⟨?_, fun test member => ((mem_iff test).mp member).1⟩
      rw [List.perm_ext_iff_of_nodup once onceRight]
      intro test
      rw [mem_iff, mem_others_iff]
      constructor
      · intro ⟨bare, defines⟩
        exact ⟨bare, defines.correspond correspond⟩
      · intro ⟨bare, defines⟩
        exact ⟨bare, defines.correspond correspond.symm⟩
    · exact (readable (stops.unreadable.correspond correspond.symm)).elim
  · rw [failed]
    exact Follows.error _ _

theorem SameBareTests.ofName_eq {before after : List TestMethod}
    (same : SameBareTests before after) (name : String) :
    TestMethod.ofName name before = TestMethod.ofName name after := by
  apply TestMethod.ofName_eq_of_perm same.perm
  refine ⟨{ testName := name, annotations := [] }, ?_⟩
  intro test member
  obtain ⟨inBefore, named⟩ :=
    (TestMethod.mem_ofName_iff name before test).mp member
  have bare := same.bare test inBefore
  cases test
  cases named
  cases bare
  rfl

end JUnit3
end DexCensus
