/-
In which order the tests of one name are found.

If names of classes have no separator, all tests of a name belong to one
class.  They are its own, as it lists them, and then what the ancestors of the
class have under the name of the method, the nearest ancestor first, moved
down to the class.  Completing leaves out repeats at every level, which comes
to the same as leaving them out at the end.
-/

import DexCensus.Proofs.Arrangement.JUnit4
import DexCensus.Proofs.JUnit4.Repetition

namespace DexCensus
namespace JUnit4

open Dex

variable {markers : List String}

private theorem movedDown_succ (classes : Nat → ClassSummary) (level : Nat)
    (test : TestMethod) :
    movedDown classes (level + 1) test =
      rehome (classes 0)
        (movedDown (fun higher => classes (higher + 1)) level test) := by
  induction level generalizing test with
  | zero => rfl
  | succ level ih => rw [movedDown, ih, movedDown]

/-- The tests that the classes of a line up to some height have for a method,
all moved down to the bottom: those of the bottom first, then one level after
another. -/
def testsAlong (classes : Nat → ClassSummary) (methodName : String)
    (height : Nat) : List TestMethod :=
  (List.range (height + 1)).flatMap fun level =>
    (TestMethod.ofName (TestName.ofParts (classes level).name methodName)
      (classes level).tests).map (movedDown classes level)

@[simp] theorem testsAlong_zero (classes : Nat → ClassSummary)
    (methodName : String) :
    testsAlong classes methodName 0 =
      TestMethod.ofName (TestName.ofParts (classes 0).name methodName)
        (classes 0).tests := by
  simp [testsAlong, movedDown]

theorem testsAlong_succ (classes : Nat → ClassSummary) (methodName : String)
    (height : Nat) :
    testsAlong classes methodName (height + 1) =
      TestMethod.ofName (TestName.ofParts (classes 0).name methodName)
        (classes 0).tests ++
      (testsAlong (fun level => classes (level + 1)) methodName height).map
        (rehome (classes 0)) := by
  rw [testsAlong, List.range_succ_eq_map, List.flatMap_cons, testsAlong,
    List.map_flatMap]
  congr 1
  · exact List.map_id _
  · rw [List.flatMap_map]
    apply List.flatMap_congr
    intro level _
    rw [List.map_map]
    apply List.map_congr_left
    intro test _
    exact movedDown_succ classes level test

/-- Positions from a class upwards, each the parent of the one below it, up to
one without a parent. -/
structure AncestorLine (table : ClassTable) (height : Nat)
    (line : Nat → Fin table.size) : Prop where
  parents : ∀ level < height,
    table.IsParent (line (level + 1)) (line level)
  top : table.parent? (line height) = none

section Table

variable {table : ClassTable} (acyclic : table.Acyclic)

include acyclic in
private theorem exists_ancestorLine (position : Fin table.size) :
    ∃ height line, AncestorLine table height line ∧ line 0 = position := by
  induction position using acyclic.wellFounded.induction with
  | _ position ih =>
      cases above : table.parent? position with
      | none =>
          exact ⟨0, fun _ => position, ⟨by simp, above⟩, rfl⟩
      | some parent =>
          have edge := (table.parent?_eq_some_iff parent position).mp above
          obtain ⟨height, line, ⟨parents, top⟩, bottom⟩ := ih parent edge
          let longer : Nat → Fin table.size
            | 0 => position
            | level + 1 => line level
          refine ⟨height + 1, longer, ⟨?_, top⟩, rfl⟩
          intro level below
          cases level with
          | zero =>
              change table.IsParent (line 0) position
              rw [bottom]
              exact edge
          | succ level => exact parents level (by omega)

private theorem ofName_map_rehome {parent child : ClassSummary}
    (plain : TestName.separator ∉ parent.name.toList) (methodName : String)
    {inherited : List TestMethod}
    (named : ∀ test ∈ inherited, ∃ methodName,
      test.testName = TestName.ofParts parent.name methodName) :
    TestMethod.ofName (TestName.ofParts child.name methodName)
        (inherited.map (rehome child)) =
      (TestMethod.ofName (TestName.ofParts parent.name methodName)
        inherited).map (rehome child) := by
  rw [TestMethod.ofName, List.filter_map, TestMethod.ofName]
  congr 1
  apply List.filter_congr
  intro test member
  obtain ⟨own, isNamed⟩ := named test member
  have cut : TestName.methodPart test.testName = own := by
    rw [isNamed, TestName.methodPart_ofParts plain]
  have sameMethod (className : String) :
      TestName.ofParts className own = TestName.ofParts className methodName ↔
        own = methodName := by
    simp [← String.toList_inj]
  rw [Function.comp_apply, rehome, cut, isNamed]
  exact decide_eq_decide.mpr ((sameMethod _).trans (sameMethod _).symm)

/-- What is complete for a class and a method, from the class upwards.  The
induction is on the height of the class; the ancestors of its parent are its
own ancestors, one level further down. -/
theorem ofName_complete_eq {definitions : List Definition}
    (represents : Represents markers table definitions)
    (wellNamed : WellNamed table) (methodName : String) (height : Nat) :
    ∀ line : Nat → Fin table.size, AncestorLine table height line →
      TestMethod.ofName
          (TestName.ofParts (table.get (line 0)).name methodName)
          (complete table acyclic (line 0)) =
        (testsAlong (fun level => table.get (line level)) methodName
          height).eraseDups := by
  induction height with
  | zero =>
      intro line ancestors
      obtain ⟨_, stands⟩ := represents.exists_definition (line 0)
      have once := stands.summarizes.nodup_tests
      rw [complete_of_root acyclic ancestors.top, completed, List.map_nil,
        appendNew, testsAlong_zero, ← appendNew_nil]
      exact (appendNew_nil_of_nodup (once.filter _)).symm
  | succ height ih =>
      intro line ancestors
      have edge := ancestors.parents 0 (Nat.succ_pos height)
      obtain ⟨_, stands⟩ := represents.exists_definition (line 0)
      have once := stands.summarizes.nodup_tests
      have above := ih (fun level => line (level + 1))
        ⟨fun level below => ancestors.parents (level + 1) (by omega),
          ancestors.top⟩
      have named : ∀ test ∈ complete table acyclic (line 1), ∃ methodName,
          test.testName =
            TestName.ofParts (table.get (line 1)).name methodName :=
        fun test member => represents.exists_methodName acyclic member
      rw [complete_of_parent acyclic edge, completed, TestMethod.ofName,
        filter_appendNew, ← TestMethod.ofName, ← TestMethod.ofName,
        ofName_map_rehome (wellNamed.plain (line 1)) methodName named, above,
        ← appendNew_nil, appendNew_map_appendNew, List.nil_append,
        testsAlong_succ, ← appendNew_nil, appendNew_append]
      congr 1
      exact (appendNew_nil_of_nodup (once.filter _)).symm

private theorem flatMap_eq_of_others_nil {α β : Type} {listed : α → List β}
    {values : List α} (once : values.Nodup) {value : α} (member : value ∈ values)
    (others : ∀ other ∈ values, other ≠ value → listed other = []) :
    values.flatMap listed = listed value := by
  obtain ⟨before, after, rfl⟩ := List.append_of_mem member
  obtain ⟨_, onceAfter, apart⟩ := List.nodup_append.mp once
  have beforeNil : before.flatMap listed = [] := by
    rw [List.flatMap_eq_nil_iff]
    intro other inBefore
    exact others other (List.mem_append_left _ inBefore)
      (apart other inBefore value List.mem_cons_self)
  have afterNil : after.flatMap listed = [] := by
    rw [List.flatMap_eq_nil_iff]
    intro other inAfter
    apply others other (List.mem_append_right _
      (List.mem_cons_of_mem value inAfter))
    intro same
    exact (List.nodup_cons.mp onceAfter).1 (same ▸ inAfter)
  rw [List.flatMap_append, List.flatMap_cons, beforeNil, afterNil,
    List.nil_append, List.append_nil]

private theorem WellNamed.ofName_concreteTests (wellNamed : WellNamed table)
    {position : Fin table.size}
    (concrete : (table.get position).isConcrete = true) {test : TestMethod}
    (member : test ∈ complete table acyclic position) :
    TestMethod.ofName test.testName (concreteTests table acyclic) =
      TestMethod.ofName test.testName (complete table acyclic position) := by
  rw [concreteTests, TestMethod.ofName_flatMap]
  apply flatMap_eq_of_others_nil ((List.nodup_finRange _).filter _)
  · exact List.mem_filter.mpr ⟨List.mem_finRange position, concrete⟩
  · intro other _ differs
    rw [List.eq_nil_iff_forall_not_mem]
    intro found foundMember
    obtain ⟨inOther, named⟩ := (TestMethod.mem_ofName_iff _ _ _).mp foundMember
    exact differs (wellNamed.position_unique acyclic inOther member named)

end Table

/-! ### Whole packages -/

/-- A kept class with those above it.  Each is the superclass of the one below
it, the highest one has no superclass in the package, and the summary of each
is at hand. -/
structure KeptLine (markers : List String) (definitions : List Definition)
    (height : Nat) (line : Nat → Definition) (classes : Nat → ClassSummary) :
    Prop where
  kept : Kept definitions (line 0)
  parents : ∀ level < height,
    KeptParent definitions (line (level + 1)) (line level)
  top : ∀ parent, ¬ KeptParent definitions parent (line height)
  summarizes : ∀ level ≤ height,
    Summarizes markers (line level) (classes level)

private theorem AncestorLine.keptLine {table : ClassTable}
    {definitions : List Definition}
    (represents : Represents markers table definitions)
    {height : Nat} {line : Nat → Fin table.size}
    (ancestors : AncestorLine table height line)
    {definitionAt : Fin table.size → Definition}
    (stands : ∀ position,
      StandsAt markers definitions table position (definitionAt position)) :
    KeptLine markers definitions height (fun level => definitionAt (line level))
      (fun level => table.get (line level)) where
  kept := (stands (line 0)).kept
  parents := fun level below =>
    ((stands _).isParent_iff (stands _)).mp (ancestors.parents level below)
  top := by
    intro parent edge
    obtain ⟨position, parentStands⟩ :=
      represents.exists_position edge.parentKept
    have above := (parentStands.isParent_iff (stands _)).mpr edge
    have found := (table.parent?_eq_some_iff position _).mpr above
    rw [ancestors.top] at found
    cases found
  summarizes := fun level _ => (stands (line level)).summarizes

theorem ofName_findTests_eq {segments : List IndexedSegment}
    {tests : List TestMethod}
    (found : findTests markers segments = .ok tests)
    (plain : PlainNames (classDefinitions segments)) {test : TestMethod}
    (member : test ∈ tests) :
    ∃ height line classes methodName,
      KeptLine markers (classDefinitions segments) height line classes ∧
      (classes 0).isConcrete = true ∧
      test.testName = TestName.ofParts (classes 0).name methodName ∧
      TestMethod.ofName test.testName tests =
        (testsAlong classes methodName height).eraseDups := by
  obtain ⟨survey, surveyed, acyclic, rfl⟩ :=
    (findTests_eq_ok_iff segments tests).mp found
  have represents := Survey.represents_of_ofSegments surveyed
  have wellNamed := represents.wellNamed plain
  obtain ⟨position, concrete, complete⟩ :=
    (mem_concreteTests_iff acyclic test).mp member
  obtain ⟨methodName, named⟩ := represents.exists_methodName acyclic complete
  obtain ⟨height, line, ancestors, rfl⟩ :=
    exists_ancestorLine acyclic position
  choose definitionAt stands using represents.exists_definition
  refine ⟨height, _, _, methodName, ancestors.keptLine represents stands,
    concrete, named, ?_⟩
  rw [wellNamed.ofName_concreteTests acyclic concrete complete, named]
  exact ofName_complete_eq acyclic represents wellNamed methodName height line
    ancestors

end JUnit4
end DexCensus
