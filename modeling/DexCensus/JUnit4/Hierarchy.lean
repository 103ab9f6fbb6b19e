/-
Tests that classes inherit.

The complete tests of a class are its own, then those of its superclass moved
onto it, each one only once.  The superclass is looked up by name; one that the
table does not have contributes nothing.

Every class is resolved once.  Resolving climbs from a class to the nearest
ancestor whose tests are known, or to one without a superclass in the table,
and descends again, completing one class after another.  A class met again
while climbing is its own ancestor, which is an error.  Each step of the climb
marks a class that was not visited before, so the climb ends.
-/

import DexCensus.JUnit4.ClassTable

namespace DexCensus
namespace JUnit4

/-- Whether an annotation follows a test to a subclass: its type is inherited
and the subclass has no annotation of the same name. -/
def followsTo (child : ClassSummary) (entry : TestAnnotation) : Bool :=
  entry.inherited
    && !child.annotations.any fun own => own.name == entry.name

def rehome (child : ClassSummary) (method : TestMethod) : TestMethod :=
  { testName :=
      TestName.ofParts child.name (TestName.methodPart method.testName)
    annotations :=
      method.annotations.filter (followsTo child) ++ child.annotations }

def completed (child : ClassSummary) (inherited : List TestMethod) :
    List TestMethod :=
  appendNew child.tests (inherited.map (rehome child))

inductive Mark where
  | unvisited
  /-- The class has been climbed through and waits for its superclass. -/
  | inProgress
  | done (tests : List TestMethod)

def Mark.isUnvisited : Mark → Bool
  | .unvisited => true
  | _ => false

abbrev Marks (table : ClassTable) : Type :=
  Vector Mark table.size

namespace Marks

def initial (table : ClassTable) : Marks table :=
  Vector.replicate table.size .unvisited

def unvisited {table : ClassTable} (marks : Marks table) : Nat :=
  marks.countP Mark.isUnvisited

private theorem unvisited_set_lt {table : ClassTable} (marks : Marks table)
    (position : Fin table.size) (mark : Mark)
    (before : marks[position].isUnvisited = true)
    (after : mark.isUnvisited = false) :
    unvisited (marks.set position mark) < unvisited marks := by
  have positive : 0 < marks.countP Mark.isUnvisited := by
    rw [Vector.countP_pos_iff]
    exact ⟨marks[position], Vector.getElem_mem position.isLt, before⟩
  have counted :
      (marks.set position mark).countP Mark.isUnvisited =
        (marks.countP Mark.isUnvisited
          - if marks[position.val].isUnvisited = true then 1 else 0)
          + if mark.isUnvisited = true then 1 else 0 :=
    Vector.countP_set position.isLt
  have beforeValue : marks[position.val].isUnvisited = true := before
  rw [beforeValue, after] at counted
  simp only [if_true, Bool.false_eq_true, if_false, Nat.add_zero] at counted
  simp only [unvisited]
  omega

end Marks

/-- Where a climb ended: the marks, the classes climbed through with the
topmost first, and the tests that the topmost one inherits. -/
structure Climb (table : ClassTable) where
  marks : Marks table
  chain : List (Fin table.size)
  inherited : List TestMethod

def ownAncestorFault (summary : ClassSummary) : Fault :=
  .ownAncestor (TestName.withoutTrailingSeparators summary.name)
    summary.classType

/-- Climbing from a class.  `chain` holds the classes climbed through so far,
the topmost first. -/
def climb (table : ClassTable) (marks : Marks table)
    (chain : List (Fin table.size)) (position : Fin table.size) :
    Except Fault (Climb table) :=
  match seen : marks[position] with
  | .done tests =>
      .ok { marks := marks, chain := chain, inherited := tests }
  | .inProgress => .error (ownAncestorFault (table.get position))
  | .unvisited =>
      match table.parent? position with
      | none =>
          .ok {
            marks := marks.set position .inProgress
            chain := position :: chain
            inherited := [] }
      | some parent =>
          climb table (marks.set position .inProgress) (position :: chain)
            parent
termination_by marks.unvisited
decreasing_by
  exact Marks.unvisited_set_lt marks position .inProgress
    (by rw [seen]; rfl) rfl

/-- Completing the classes of a chain, the topmost first. -/
def descend (table : ClassTable) :
    List (Fin table.size) → Marks table → List TestMethod →
      Marks table × List TestMethod
  | [], marks, tests => (marks, tests)
  | position :: rest, marks, inherited =>
      let tests := completed (table.get position) inherited
      descend table rest (marks.set position (.done tests)) tests

def resolve (table : ClassTable) (marks : Marks table)
    (position : Fin table.size) :
    Except Fault (Marks table × List TestMethod) :=
  match climb table marks [] position with
  | .error fault => .error fault
  | .ok climbed =>
      .ok (descend table climbed.chain climbed.marks climbed.inherited)

/-- What is known after some classes, and the tests of the concrete ones. -/
structure Harvest (table : ClassTable) where
  marks : Marks table
  tests : Array TestMethod

def Harvest.gather {table : ClassTable} (harvest : Harvest table)
    (position : Fin table.size) : Except Fault (Harvest table) :=
  match resolve table harvest.marks position with
  | .error fault => .error fault
  | .ok (marks, tests) =>
      if (table.get position).isConcrete then
        .ok { marks := marks, tests := harvest.tests ++ tests }
      else .ok { marks := marks, tests := harvest.tests }

def harvest (table : ClassTable) : Except Fault (List TestMethod) :=
  match (List.finRange table.size).foldlM Harvest.gather
      { marks := Marks.initial table, tests := #[] } with
  | .error fault => .error fault
  | .ok gathered => .ok gathered.tests.toList

end JUnit4
end DexCensus
