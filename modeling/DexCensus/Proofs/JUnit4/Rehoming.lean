/-
Tests that move down a line of classes.

A class line is numbered from the class that runs the test upwards: the class
at zero is the one that inherits, the class at level one is its superclass,
and so on.  A test of the topmost class is moved onto one class after another.
The annotations that arrive are described level by level: what stood at some
level arrives if it is inherited and if no class nearer to the bottom has a
class annotation of the same name.
-/

import DexCensus.Proofs.JUnit4.Completion

namespace DexCensus
namespace JUnit4

@[simp] theorem mem_completed_iff (child : ClassSummary)
    (inherited : List TestMethod) (test : TestMethod) :
    test ∈ completed child inherited ↔
      test ∈ child.tests ∨ ∃ moved ∈ inherited, test = rehome child moved := by
  rw [completed, mem_appendNew_iff, List.mem_map]
  constructor
  · rintro (own | ⟨moved, member, same⟩)
    · exact Or.inl own
    · exact Or.inr ⟨moved, member, same.symm⟩
  · rintro (own | ⟨moved, member, same⟩)
    · exact Or.inl own
    · exact Or.inr ⟨moved, member, same.symm⟩

section Complete

variable {table : ClassTable} (acyclic : table.Acyclic)

theorem mem_complete_of_own {position : Fin table.size} {test : TestMethod}
    (own : test ∈ (table.get position).tests) :
    test ∈ complete table acyclic position := by
  cases above : table.parent? position with
  | none =>
      rw [complete_of_root acyclic above, mem_completed_iff]
      exact Or.inl own
  | some parent =>
      have edge := (table.parent?_eq_some_iff parent position).mp above
      rw [complete_of_parent acyclic edge, mem_completed_iff]
      exact Or.inl own

theorem rehome_mem_complete {parent child : Fin table.size}
    (edge : table.IsParent parent child) {test : TestMethod}
    (member : test ∈ complete table acyclic parent) :
    rehome (table.get child) test ∈ complete table acyclic child := by
  rw [complete_of_parent acyclic edge, mem_completed_iff]
  exact Or.inr ⟨test, member, rfl⟩

theorem own_or_rehomed_of_mem_complete {position : Fin table.size}
    {test : TestMethod} (member : test ∈ complete table acyclic position) :
    test ∈ (table.get position).tests ∨
      ∃ parent, table.IsParent parent position ∧
        ∃ moved ∈ complete table acyclic parent,
          test = rehome (table.get position) moved := by
  cases above : table.parent? position with
  | none =>
      rw [complete_of_root acyclic above, mem_completed_iff] at member
      rcases member with own | ⟨_, impossible, _⟩
      · exact Or.inl own
      · exact (List.not_mem_nil impossible).elim
  | some parent =>
      have edge := (table.parent?_eq_some_iff parent position).mp above
      rw [complete_of_parent acyclic edge, mem_completed_iff] at member
      rcases member with own | moved
      · exact Or.inl own
      · exact Or.inr ⟨parent, edge, moved⟩

end Complete

/-! ### A line of classes -/

/-- A test of the class at some level, moved onto the classes below it one
after another, the one at zero last. -/
def movedDown (classes : Nat → ClassSummary) : Nat → TestMethod → TestMethod
  | 0, test => test
  | level + 1, test => movedDown classes level (rehome (classes level) test)

/-- Whether an annotation that stands at some level arrives at the bottom: it
is inherited, and no class below the level has one of the same name. -/
def Arrives (classes : Nat → ClassSummary) (level : Nat)
    (entry : TestAnnotation) : Prop :=
  entry.inherited = true ∧
    ∀ nearer < level, ∀ own ∈ (classes nearer).annotations,
      own.name ≠ entry.name

instance (classes : Nat → ClassSummary) (level : Nat)
    (entry : TestAnnotation) : Decidable (Arrives classes level entry) :=
  inferInstanceAs (Decidable (_ ∧ _))

theorem followsTo_iff (child : ClassSummary) (entry : TestAnnotation) :
    followsTo child entry = true ↔
      entry.inherited = true ∧
        ∀ own ∈ child.annotations, own.name ≠ entry.name := by
  simp [followsTo]

private theorem arrives_succ_iff (classes : Nat → ClassSummary) (level : Nat)
    (entry : TestAnnotation) :
    Arrives classes (level + 1) entry ↔
      Arrives classes level entry ∧ followsTo (classes level) entry = true := by
  rw [followsTo_iff]
  unfold Arrives
  constructor
  · intro ⟨inherited, apart⟩
    refine ⟨⟨inherited, ?_⟩, inherited, apart level (Nat.lt_succ_self level)⟩
    intro nearer below
    exact apart nearer (Nat.lt_succ_of_lt below)
  · intro ⟨⟨inherited, apart⟩, _, apartHere⟩
    refine ⟨inherited, ?_⟩
    intro nearer below
    rcases Nat.lt_succ_iff_lt_or_eq.mp below with lower | same
    · exact apart nearer lower
    · rw [same]
      exact apartHere

private theorem filter_arrives_succ (classes : Nat → ClassSummary) (level : Nat)
    (entries : List TestAnnotation) :
    (entries.filter (followsTo (classes level))).filter
        (fun entry => decide (Arrives classes level entry)) =
      entries.filter fun entry =>
        decide (Arrives classes (level + 1) entry) := by
  rw [List.filter_filter]
  apply List.filter_congr
  intro entry _
  rw [decide_eq_decide.mpr (arrives_succ_iff classes level entry),
    Bool.decide_and, Bool.decide_eq_true]

/-- What arrives of the class annotations at the levels from `height` down to
one, the highest level first. -/
def arrivingClassAnnotations (classes : Nat → ClassSummary) (height : Nat) :
    List TestAnnotation :=
  (List.range height).reverse.flatMap fun below =>
    (classes (below + 1)).annotations.filter fun entry =>
      decide (Arrives classes (below + 1) entry)

private theorem arrivingClassAnnotations_succ (classes : Nat → ClassSummary)
    (height : Nat) :
    arrivingClassAnnotations classes (height + 1) =
      ((classes (height + 1)).annotations.filter fun entry =>
        decide (Arrives classes (height + 1) entry)) ++
      arrivingClassAnnotations classes height := by
  simp only [arrivingClassAnnotations, List.range_succ, List.reverse_append,
    List.reverse_singleton, List.singleton_append, List.flatMap_cons]

/-- The induction is on the number of classes between the test and the bottom;
after the first step the test carries the class annotations of the topmost one
of them, which the steps below treat like all others. -/
theorem annotations_movedDown (classes : Nat → ClassSummary) (height : Nat)
    (test : TestMethod) :
    (movedDown classes (height + 1) test).annotations =
      (test.annotations.filter fun entry =>
        decide (Arrives classes (height + 1) entry)) ++
      arrivingClassAnnotations classes height ++
      (classes 0).annotations := by
  induction height generalizing test with
  | zero =>
      have firstStep := filter_arrives_succ classes 0 test.annotations
      have bottom : (test.annotations.filter (followsTo (classes 0))).filter
          (fun entry => decide (Arrives classes 0 entry)) =
            test.annotations.filter (followsTo (classes 0)) := by
        rw [List.filter_eq_self]
        intro entry member
        have follows := (followsTo_iff _ _).mp (List.mem_filter.mp member).2
        exact decide_eq_true ⟨follows.1, by simp⟩
      rw [← firstStep, bottom]
      simp [movedDown, rehome, arrivingClassAnnotations]
  | succ height ih =>
      rw [movedDown, ih, rehome, List.filter_append, filter_arrives_succ,
        arrivingClassAnnotations_succ]
      simp only [List.append_assoc]

/-- Every annotation that arrives stands at some level: at the bottom, or
higher up and inherited, with no class annotation of its name below it. -/
theorem mem_annotations_movedDown {classes : Nat → ClassSummary}
    {height : Nat} {test : TestMethod} {entry : TestAnnotation}
    (member : entry ∈ (movedDown classes (height + 1) test).annotations) :
    entry ∈ (classes 0).annotations ∨
    (entry ∈ test.annotations ∧ Arrives classes (height + 1) entry) ∨
    ∃ level, 0 < level ∧ level ≤ height ∧
      entry ∈ (classes level).annotations ∧ Arrives classes level entry := by
  rw [annotations_movedDown, List.mem_append, List.mem_append] at member
  rcases member with (ofTest | ofClass) | atBottom
  · obtain ⟨inTest, arrives⟩ := List.mem_filter.mp ofTest
    exact Or.inr (Or.inl ⟨inTest, of_decide_eq_true arrives⟩)
  · obtain ⟨below, inRange, filtered⟩ := List.mem_flatMap.mp ofClass
    obtain ⟨inClass, arrives⟩ := List.mem_filter.mp filtered
    have bound := List.mem_range.mp (List.mem_reverse.mp inRange)
    exact Or.inr (Or.inr ⟨below + 1, Nat.succ_pos below, bound, inClass,
      of_decide_eq_true arrives⟩)
  · exact Or.inl atBottom

/-- A test that is complete for the class at some level of a line of parents
is, moved down, complete for the class at the bottom. -/
theorem movedDown_mem_complete {table : ClassTable} (acyclic : table.Acyclic)
    {classes : Nat → ClassSummary} {line : Nat → Fin table.size} :
    ∀ (level : Nat) (test : TestMethod),
      (∀ below < level, table.get (line below) = classes below) →
      (∀ below < level, table.IsParent (line (below + 1)) (line below)) →
      test ∈ complete table acyclic (line level) →
      movedDown classes level test ∈ complete table acyclic (line 0) := by
  intro level
  induction level with
  | zero =>
      intro test _ _ member
      exact member
  | succ level ih =>
      intro test standing linked member
      have moved := rehome_mem_complete acyclic
        (linked level (Nat.lt_succ_self level)) member
      rw [standing level (Nat.lt_succ_self level)] at moved
      apply ih
      · intro below bound
        exact standing below (Nat.lt_succ_of_lt bound)
      · intro below bound
        exact linked below (Nat.lt_succ_of_lt bound)
      · exact moved

/-- The nearest class wins along a line of any length.  A test of the class
at the top arrives with what arrives of its own annotations, then with what
arrives of the class annotations between, the higher classes first, then with
all class annotations of the bottom.  In a table, resolving the class at the
bottom gives just this test. -/
theorem rehomed_annotations_nearest_class_wins
    (classes : Nat → ClassSummary) (height : Nat) (test : TestMethod) :
    (movedDown classes (height + 1) test).annotations =
      (test.annotations.filter fun entry =>
        decide (Arrives classes (height + 1) entry)) ++
      ((List.range height).reverse.flatMap fun below =>
        (classes (below + 1)).annotations.filter fun entry =>
          decide (Arrives classes (below + 1) entry)) ++
      (classes 0).annotations ∧
    (∀ entry ∈ (movedDown classes (height + 1) test).annotations,
      entry ∈ (classes 0).annotations ∨
      (entry ∈ test.annotations ∧ Arrives classes (height + 1) entry) ∨
      ∃ level, 0 < level ∧ level ≤ height ∧
        entry ∈ (classes level).annotations ∧ Arrives classes level entry) ∧
    (∀ table : ClassTable, table.Acyclic → ∀ line : Nat → Fin table.size,
      (∀ level ≤ height + 1, table.get (line level) = classes level) →
      (∀ level ≤ height, table.IsParent (line (level + 1)) (line level)) →
      test ∈ (classes (height + 1)).tests →
      ∀ marks, Reachable table marks → ∃ next tests,
        resolve table marks (line 0) = .ok (next, tests) ∧
          movedDown classes (height + 1) test ∈ tests) := by
  refine ⟨annotations_movedDown classes height test,
    fun entry member => mem_annotations_movedDown member, ?_⟩
  intro table acyclic line standing linked own marks reachable
  obtain ⟨next, resolved, _⟩ :=
    resolve_settled acyclic (reachable.settled acyclic) (line 0)
  refine ⟨next, _, resolved, ?_⟩
  apply movedDown_mem_complete acyclic (height + 1) test
  · intro below bound
    exact standing below (Nat.le_of_lt bound)
  · intro below bound
    exact linked below (Nat.le_of_lt_succ bound)
  · rw [← standing (height + 1) (Nat.le_refl _)] at own
    exact mem_complete_of_own acyclic own

/-! ### A line of three classes -/

def sampleEntry (name value : String) (inherited : Bool) :
    TestAnnotation :=
  { name := name
    values := [("value", .string value)]
    inherited := inherited }

def sampleTest : TestMethod :=
  { testName := "Root#runs"
    annotations :=
      [sampleEntry "Size" "small" true,
        sampleEntry "org.junit.Test" "" false,
        sampleEntry "Flaky" "" true] }

/-- A class that overrides the annotation `Size` of the class above it. -/
def sampleMiddle : ClassSummary :=
  { name := "Middle"
    segmentNumber := 1
    classType := 1
    superclassName := some "Root"
    annotations :=
      [sampleEntry "Size" "large" true,
        sampleEntry "Owner" "middle" true,
        sampleEntry "Draft" "" false]
    tests := []
    isConcrete := false }

def sampleLeaf : ClassSummary :=
  { name := "Leaf"
    segmentNumber := 1
    classType := 2
    superclassName := some "Middle"
    annotations := [sampleEntry "Owner" "leaf" false]
    tests := []
    isConcrete := true }

def sampleRoot : ClassSummary :=
  { name := "Root"
    segmentNumber := 2
    classType := 0
    superclassName := some "java.lang.Object"
    annotations := [sampleEntry "Size" "small" true]
    tests := [sampleTest]
    isConcrete := true }

def sampleLine : Nat → ClassSummary
  | 0 => sampleLeaf
  | 1 => sampleMiddle
  | _ => sampleRoot

def sampleTable : ClassTable :=
  ((ClassTable.empty.append sampleLeaf (by simp [ClassTable.empty])).append
    sampleMiddle (by
      simp [ClassTable.append, ClassTable.empty, sampleLeaf,
        sampleMiddle])).append
    sampleRoot (by
      simp [ClassTable.append, ClassTable.empty, sampleLeaf, sampleMiddle,
        sampleRoot])

def samplePosition : Nat → Fin sampleTable.size
  | 0 => ⟨0, by decide⟩
  | 1 => ⟨1, by decide⟩
  | _ => ⟨2, by decide⟩

private theorem sampleTable_acyclic : sampleTable.Acyclic :=
  ClassTable.acyclic_of_parents_below (by decide)

/-- `Size` arrives from the middle class and `Owner` is that of the leaf. -/
theorem sampleLine_arrives :
    (movedDown sampleLine 2 sampleTest).annotations =
      [sampleEntry "Flaky" "" true,
        sampleEntry "Size" "large" true,
        sampleEntry "Owner" "leaf" false] ∧
    ∃ next tests, resolve sampleTable (Marks.initial sampleTable)
        (samplePosition 0) = .ok (next, tests) ∧
      movedDown sampleLine 2 sampleTest ∈ tests := by
  obtain ⟨arriving, _, resolves⟩ :=
    rehomed_annotations_nearest_class_wins sampleLine 1 sampleTest
  refine ⟨arriving.trans (by decide), ?_⟩
  refine resolves sampleTable sampleTable_acyclic samplePosition ?_ ?_ ?_ _
    Reachable.initial
  · intro level bound
    match level, bound with
    | 0, _ => rfl
    | 1, _ => rfl
    | 2, _ => rfl
  · intro level bound
    match level, bound with
    | 0, _ => decide
    | 1, _ => decide
  · exact List.mem_singleton.mpr rfl

end JUnit4
end DexCensus
