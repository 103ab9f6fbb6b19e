/-
Tests that JUnit4 discovery finds twice.

A class has no test twice, so a test that is found twice belongs to two
concrete classes.  Both carry their own name into the name of the test, which
is then cut at two different separators: the name of one class goes on behind
the name of the other with a separator.
-/

import DexCensus.Proofs.JUnit4.InheritedTest
import DexCensus.Proofs.OrderedSet

namespace DexCensus

open Dex

section Counting

variable {α β : Type} [DecidableEq β]

private theorem two_le_count_flatMap_iff {positions : List α}
    {listed : α → List β}
    (distinct : positions.Nodup)
    (once : ∀ position ∈ positions, (listed position).Nodup) (value : β) :
    2 ≤ (positions.flatMap listed).count value ↔
      ∃ left ∈ positions, ∃ right ∈ positions, left ≠ right ∧
        value ∈ listed left ∧ value ∈ listed right := by
  induction positions with
  | nil => simp
  | cons first rest ih =>
      obtain ⟨firstOnce, restOnce⟩ := List.forall_mem_cons.mp once
      obtain ⟨firstApart, restDistinct⟩ := List.nodup_cons.mp distinct
      have inRest := ih restDistinct restOnce
      rw [List.flatMap_cons, List.count_append]
      by_cases here : value ∈ listed first
      · have single : (listed first).count value = 1 :=
          List.count_eq_one_of_mem firstOnce here
        have again : 2 ≤ 1 + (rest.flatMap listed).count value ↔
            value ∈ rest.flatMap listed := by
          rw [← List.count_pos_iff]
          omega
        rw [single, again, List.mem_flatMap]
        constructor
        · intro ⟨other, inRest, listedToo⟩
          exact ⟨first, List.mem_cons_self, other,
            List.mem_cons_of_mem first inRest,
            fun same => firstApart (same ▸ inRest), here, listedToo⟩
        · intro ⟨left, leftIn, right, rightIn, apart, inLeft, inRight⟩
          rcases List.mem_cons.mp leftIn with isFirst | leftLater
          · rcases List.mem_cons.mp rightIn with isFirstToo | rightLater
            · exact (apart (isFirst.trans isFirstToo.symm)).elim
            · exact ⟨right, rightLater, inRight⟩
          · exact ⟨left, leftLater, inLeft⟩
      · rw [List.count_eq_zero_of_not_mem here, Nat.zero_add, inRest]
        constructor
        · intro ⟨left, leftIn, right, rightIn, both⟩
          exact ⟨left, List.mem_cons_of_mem first leftIn, right,
            List.mem_cons_of_mem first rightIn, both⟩
        · intro ⟨left, leftIn, right, rightIn, apart, inLeft, inRight⟩
          refine ⟨left, ?_, right, ?_, apart, inLeft, inRight⟩
          · rcases List.mem_cons.mp leftIn with isFirst | later
            · exact (here (isFirst ▸ inLeft)).elim
            · exact later
          · rcases List.mem_cons.mp rightIn with isFirst | later
            · exact (here (isFirst ▸ inRight)).elim
            · exact later

/-- An element stands twice in two joined lists if it does in the second one,
or if it stands in both; the first one has no repeats. -/
theorem two_le_count_append_iff {front back : List β} (once : front.Nodup)
    (value : β) :
    2 ≤ (front ++ back).count value ↔
      (value ∈ front ∧ value ∈ back) ∨ 2 ≤ back.count value := by
  rw [List.count_append]
  by_cases here : value ∈ front
  · rw [List.count_eq_one_of_mem once here, ← List.count_pos_iff (l := back)]
    simp only [here, true_and]
    omega
  · rw [List.count_eq_zero_of_not_mem here]
    simp [here]

end Counting

namespace JUnit4

variable {markers : List String}

theorem Summarizes.nodup_tests {definition : Definition}
    {summary : ClassSummary}
    (summarizes : Summarizes markers definition summary) :
    summary.tests.Nodup := by
  obtain ⟨directory?, _, _, listed⟩ := summarizes.contents
  cases directory? with
  | none =>
      have noTests : summary.tests = [] := (Except.ok.inj listed).symm
      rw [noTests]
      exact List.nodup_nil
  | some directory =>
      obtain ⟨methods, _, marked⟩ := bind_eq_ok_iff.mp listed
      obtain ⟨found, _, whole⟩ := bind_eq_ok_iff.mp marked
      rw [← Except.ok.inj whole]
      exact nodup_appendNew [] _ List.nodup_nil

section Table

variable {table : ClassTable} {definitions : List Definition}
  (represents : Represents markers table definitions)
  (acyclic : table.Acyclic)

include represents

theorem Represents.nodup_complete (position : Fin table.size) :
    (complete table acyclic position).Nodup := by
  obtain ⟨definition, stands⟩ := represents.exists_definition position
  have ownOnce := stands.summarizes.nodup_tests
  cases above : table.parent? position with
  | none =>
      rw [complete_of_root acyclic above]
      exact nodup_appendNew _ _ ownOnce
  | some parent =>
      have edge := (table.parent?_eq_some_iff parent position).mp above
      rw [complete_of_parent acyclic edge]
      exact nodup_appendNew _ _ ownOnce

theorem Represents.exists_methodName {position : Fin table.size}
    {test : TestMethod} (member : test ∈ complete table acyclic position) :
    ∃ methodName,
      test.testName =
        TestName.ofParts (table.get position).name methodName := by
  rcases own_or_rehomed_of_mem_complete acyclic member with
    own | ⟨parent, edge, moved, _, whole⟩
  · obtain ⟨definition, stands⟩ := represents.exists_definition position
    obtain ⟨methodName, _, named⟩ :=
      (stands.summarizes.mem_test_names_iff test.testName).mp
        (List.mem_map_of_mem own)
    exact ⟨methodName, named⟩
  · exact ⟨TestName.methodPart moved.testName, by rw [whole]; rfl⟩

theorem Represents.names_of_common_test {left right : Fin table.size}
    (apart : left ≠ right) {test : TestMethod}
    (inLeft : test ∈ complete table acyclic left)
    (inRight : test ∈ complete table acyclic right) :
    (table.get left).name.toList ++ [TestName.separator] <+:
        (table.get right).name.toList ∨
      (table.get right).name.toList ++ [TestName.separator] <+:
        (table.get left).name.toList := by
  obtain ⟨leftMethod, leftNamed⟩ := represents.exists_methodName acyclic inLeft
  obtain ⟨rightMethod, rightNamed⟩ :=
    represents.exists_methodName acyclic inRight
  rcases TestName.ofParts_eq_cases (leftNamed.symm.trans rightNamed) with
    same | longer
  · exact (apart (table.eq_of_name_eq same)).elim
  · exact longer

theorem Represents.two_le_count_concreteTests_iff (test : TestMethod) :
    2 ≤ (concreteTests table acyclic).count test ↔
      ∃ left right, left ≠ right ∧
        (table.get left).isConcrete = true ∧
        (table.get right).isConcrete = true ∧
        test ∈ complete table acyclic left ∧
        test ∈ complete table acyclic right := by
  have distinct : ((List.finRange table.size).filter fun position =>
      (table.get position).isConcrete).Nodup :=
    (List.nodup_finRange table.size).filter _
  rw [concreteTests, two_le_count_flatMap_iff distinct
    (fun position _ => represents.nodup_complete acyclic position)]
  simp only [List.mem_filter, List.mem_finRange, true_and]
  constructor
  · rintro ⟨left, leftConcrete, right, rightConcrete, apart, both⟩
    exact ⟨left, right, apart, leftConcrete, rightConcrete, both⟩
  · rintro ⟨left, right, apart, leftConcrete, rightConcrete, both⟩
    exact ⟨left, leftConcrete, right, rightConcrete, apart, both⟩

end Table

end JUnit4

end DexCensus
