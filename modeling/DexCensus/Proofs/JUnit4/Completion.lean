/-
Resolving computes the tests that the recursive definition gives.

The complete tests of a class are its own, then those of its parent moved onto
it, each unless it is there already.  Resolving reaches the same list by
climbing and descending over marks that it keeps between calls.  Between two
calls every class is unvisited or carries its complete tests.  During a climb
the classes climbed through form a line, each the parent of the next, and they
are the only ones that are in progress; in an acyclic table the climb
therefore never meets one of them again.
-/

import DexCensus.JUnit4.Discovery
import DexCensus.Proofs.JUnit4.Ancestry
import DexCensus.Proofs.OrderedSet

namespace DexCensus
namespace JUnit4

variable {table : ClassTable}

def complete (table : ClassTable) (acyclic : table.Acyclic)
    (position : Fin table.size) : List TestMethod :=
  let inherited :=
    match _ : table.parent? position with
    | none => []
    | some parent => complete table acyclic parent
  (inherited.map (rehome (table.get position))).foldl
    (fun tests test => if test ∈ tests then tests else tests ++ [test])
    (table.get position).tests
termination_by acyclic.wellFounded.wrap position
decreasing_by
  rename_i found
  exact (table.parent?_eq_some_iff parent position).mp found

variable (acyclic : table.Acyclic)

theorem complete_of_root {position : Fin table.size}
    (root : table.parent? position = none) :
    complete table acyclic position = completed (table.get position) [] := by
  rw [complete, completed, appendNew_eq_foldl]
  split
  · rfl
  · rename_i parent found
    rw [root] at found
    cases found

theorem complete_of_parent {parent position : Fin table.size}
    (edge : table.IsParent parent position) :
    complete table acyclic position =
      completed (table.get position) (complete table acyclic parent) := by
  have isParent := (table.parent?_eq_some_iff parent position).mpr edge
  rw [complete, completed, appendNew_eq_foldl]
  split
  · rename_i missing
    rw [isParent] at missing
    cases missing
  · rename_i other found
    rw [isParent] at found
    cases found
    rfl

def Honest (position : Fin table.size) (mark : Mark) : Prop :=
  mark = .unvisited ∨ mark = .done (complete table acyclic position)

/-- No class is in progress, and what is known of a class is right. -/
def Settled (marks : Marks table) : Prop :=
  ∀ position, Honest acyclic position (marks.get position)

/-- During a climb, the classes climbed through are those in progress. -/
structure Climbing (marks : Marks table) (chain : List (Fin table.size)) :
    Prop where
  waiting : ∀ position ∈ chain, marks.get position = .inProgress
  others : ∀ position, position ∉ chain →
    Honest acyclic position (marks.get position)

@[simp] theorem get_set (marks : Marks table) (position : Fin table.size)
    (mark : Mark) (other : Fin table.size) :
    Vector.get (marks.set position mark position.isLt) other =
      if other = position then mark else marks.get other := by
  by_cases same : other = position
  · subst same
    rw [if_pos rfl]
    exact Vector.getElem_set_self other.isLt
  · rw [if_neg same]
    apply Vector.getElem_set_ne
    intro equal
    exact same (Fin.ext equal.symm)

theorem settled_initial : Settled acyclic (Marks.initial table) := by
  intro position
  exact Or.inl (Vector.getElem_replicate position.isLt)

private theorem Settled.climbing {marks : Marks table}
    (settled : Settled acyclic marks) : Climbing acyclic marks [] :=
  { waiting := by simp
    others := fun position _ => settled position }

private theorem Climbing.climb {marks : Marks table}
    {chain : List (Fin table.size)}
    (climbing : Climbing acyclic marks chain) (position : Fin table.size) :
    Climbing acyclic (marks.set position .inProgress position.isLt)
      (position :: chain) := by
  constructor
  case waiting =>
    intro other member
    rw [get_set]
    by_cases same : other = position
    · rw [if_pos same]
    · rw [if_neg same]
      rcases List.mem_cons.mp member with here | below
      · exact (same here).elim
      · exact climbing.waiting other below
  case others =>
    intro other absent
    have different : other ≠ position := by
      intro same
      exact absent (same ▸ List.mem_cons_self)
    rw [get_set, if_neg different]
    apply climbing.others
    intro below
    exact absent (List.mem_cons_of_mem position below)

theorem Climbing.finish {marks : Marks table} {chain : List (Fin table.size)}
    {position : Fin table.size}
    (climbing : Climbing acyclic marks (position :: chain))
    (apart : position ∉ chain) :
    Climbing acyclic
      (marks.set position (.done (complete table acyclic position))
        position.isLt)
      chain := by
  constructor
  case waiting =>
    intro other member
    have different : other ≠ position := by
      intro same
      exact apart (same ▸ member)
    rw [get_set, if_neg different]
    exact climbing.waiting other (List.mem_cons_of_mem position member)
  case others =>
    intro other absent
    rw [get_set]
    by_cases same : other = position
    · rw [if_pos same, same]
      exact Or.inr rfl
    · rw [if_neg same]
      apply climbing.others
      intro member
      rcases List.mem_cons.mp member with here | below
      · exact same here
      · exact absent below

/-- Descending from a class whose complete tests are known completes its
descendants in the line and gives the tests of the last one. -/
theorem descend_line (chain : List (Fin table.size)) :
    ∀ (marks : Marks table) (position : Fin table.size),
      Climbing acyclic marks chain →
      List.IsChain table.IsParent (position :: chain) →
      ∃ after,
        descend table chain marks (complete table acyclic position) =
          (after, complete table acyclic
            ((position :: chain).getLast (List.cons_ne_nil _ _))) ∧
        Settled acyclic after := by
  induction chain with
  | nil =>
      intro marks position climbing linked
      refine ⟨marks, rfl, ?_⟩
      intro other
      exact climbing.others other List.not_mem_nil
  | cons child rest ih =>
      intro marks position climbing linked
      obtain ⟨edge, linkedRest⟩ := List.isChain_cons_cons.mp linked
      have apart := acyclic.not_mem_descendants linkedRest
      obtain ⟨after, descended, settled⟩ := ih _ child
        (climbing.finish acyclic apart) linkedRest
      refine ⟨after, ?_, settled⟩
      rw [descend, ← complete_of_parent acyclic edge, descended,
        List.getLast_cons (List.cons_ne_nil _ _)]

theorem climb_of_done {marks : Marks table} {position : Fin table.size}
    {tests : List TestMethod} (seen : marks.get position = .done tests)
    (chain : List (Fin table.size)) :
    climb table marks chain position =
      .ok { marks := marks, chain := chain, inherited := tests } := by
  have marked : marks[position] = .done tests := seen
  rw [climb]
  split <;> simp_all

theorem climb_of_root {marks : Marks table} {position : Fin table.size}
    (seen : marks.get position = .unvisited)
    (root : table.parent? position = none) (chain : List (Fin table.size)) :
    climb table marks chain position =
      .ok { marks := marks.set position .inProgress position.isLt
            chain := position :: chain
            inherited := [] } := by
  have unmarked : marks[position] = .unvisited := seen
  rw [climb]
  split <;> simp_all

theorem climb_of_parent {marks : Marks table}
    {parent position : Fin table.size}
    (seen : marks.get position = .unvisited)
    (found : table.parent? position = some parent)
    (chain : List (Fin table.size)) :
    climb table marks chain position =
      climb table (marks.set position .inProgress position.isLt)
        (position :: chain) parent := by
  have unmarked : marks[position] = .unvisited := seen
  rw [climb]
  split <;> simp_all

private theorem climb_line (marks : Marks table) (chain : List (Fin table.size))
    (position : Fin table.size) :
    Climbing acyclic marks chain →
    List.IsChain table.IsParent (position :: chain) →
    ∃ climbed, climb table marks chain position = .ok climbed ∧
      ∃ after,
        descend table climbed.chain climbed.marks climbed.inherited =
          (after, complete table acyclic
            ((position :: chain).getLast (List.cons_ne_nil _ _))) ∧
        Settled acyclic after := by
  induction marks, chain, position using climb.induct with
  | case1 marks chain position tests marked =>
      intro climbing linked
      have seen : marks.get position = .done tests := marked
      have apart := acyclic.not_mem_descendants linked
      have known : tests = complete table acyclic position := by
        rcases climbing.others position apart with unvisited | done
        · rw [seen] at unvisited
          cases unvisited
        · rw [seen] at done
          cases done
          rfl
      subst known
      exact ⟨_, climb_of_done seen chain,
        descend_line acyclic chain marks position climbing linked⟩
  | case2 marks chain position marked =>
      intro climbing linked
      have seen : marks.get position = .inProgress := marked
      have apart := acyclic.not_mem_descendants linked
      rcases climbing.others position apart with unvisited | done
      · rw [seen] at unvisited
        cases unvisited
      · rw [seen] at done
        cases done
  | case3 marks chain position seen root =>
      intro climbing linked
      have apart := acyclic.not_mem_descendants linked
      have finished := (climbing.climb acyclic position).finish acyclic apart
      obtain ⟨after, descended, settled⟩ :=
        descend_line acyclic chain _ position finished linked
      refine ⟨_, climb_of_root seen root chain, after, ?_, settled⟩
      rw [descend, ← complete_of_root acyclic root]
      exact descended
  | case4 marks chain position seen parent found ih =>
      intro climbing linked
      have edge := (table.parent?_eq_some_iff parent position).mp found
      obtain ⟨climbed, arrived, after, descended, settled⟩ :=
        ih (climbing.climb acyclic position)
          (List.IsChain.cons_cons edge linked)
      refine ⟨climbed, ?_, after, ?_, settled⟩
      · rw [climb_of_parent seen found]
        exact arrived
      · rw [descended, List.getLast_cons (List.cons_ne_nil _ _)]

/-! ### Sequences of calls -/

theorem resolve_settled {marks : Marks table}
    (settled : Settled acyclic marks) (position : Fin table.size) :
    ∃ next, resolve table marks position =
        .ok (next, complete table acyclic position) ∧
      Settled acyclic next := by
  obtain ⟨climbed, arrived, after, descended, stillSettled⟩ :=
    climb_line acyclic marks [] position (settled.climbing acyclic)
      (List.isChain_singleton position)
  refine ⟨after, ?_, stillSettled⟩
  simp only [resolve, arrived, descended, List.getLast_singleton]

/-- The marks after any calls in any order, none of which failed. -/
inductive Reachable (table : ClassTable) : Marks table → Prop
  | initial : Reachable table (Marks.initial table)
  | resolve {marks next : Marks table} {position : Fin table.size}
      {tests : List TestMethod} :
      Reachable table marks →
        resolve table marks position = .ok (next, tests) →
          Reachable table next

theorem Reachable.settled {marks : Marks table}
    (reachable : Reachable table marks) : Settled acyclic marks := by
  induction reachable with
  | initial => exact settled_initial acyclic
  | @resolve marks next position tests before ran ih =>
      obtain ⟨after, resolved, settled⟩ := resolve_settled acyclic ih position
      rw [resolved] at ran
      cases ran
      exact settled

/-- The complete tests of the concrete classes of a table, in table order. -/
def concreteTests (table : ClassTable) (acyclic : table.Acyclic) :
    List TestMethod :=
  ((List.finRange table.size).filter fun position =>
    (table.get position).isConcrete).flatMap (complete table acyclic)

private theorem gather_settled {gathered : Harvest table}
    (settled : Settled acyclic gathered.marks) (position : Fin table.size) :
    ∃ next, gathered.gather position = .ok next ∧
      Settled acyclic next.marks ∧
      next.tests.toList = gathered.tests.toList ++
        if (table.get position).isConcrete = true then
          complete table acyclic position
        else [] := by
  obtain ⟨marks, resolved, stillSettled⟩ :=
    resolve_settled acyclic settled position
  unfold Harvest.gather
  rw [resolved]
  by_cases concrete : (table.get position).isConcrete = true
  · simp only [if_pos concrete]
    refine ⟨_, rfl, stillSettled, ?_⟩
    exact Array.toList_appendList
  · simp only [if_neg concrete]
    refine ⟨_, rfl, stillSettled, ?_⟩
    exact (List.append_nil _).symm

private theorem foldlM_gather (positions : List (Fin table.size)) :
    ∀ gathered : Harvest table, Settled acyclic gathered.marks →
      ∃ last, positions.foldlM Harvest.gather gathered = .ok last ∧
        last.tests.toList = gathered.tests.toList ++
          (positions.filter fun position =>
            (table.get position).isConcrete).flatMap
              (complete table acyclic) := by
  induction positions with
  | nil =>
      intro gathered settled
      refine ⟨gathered, rfl, ?_⟩
      rw [List.filter_nil, List.flatMap_nil, List.append_nil]
  | cons position rest ih =>
      intro gathered settled
      obtain ⟨next, gatheredNext, stillSettled, listedNext⟩ :=
        gather_settled acyclic settled position
      obtain ⟨last, ran, listed⟩ := ih next stillSettled
      refine ⟨last, ?_, ?_⟩
      · rw [List.foldlM_cons, gatheredNext]
        exact ran
      · rw [listed, listedNext, List.filter_cons, List.append_assoc]
        split
        · rw [List.flatMap_cons]
        · rw [List.nil_append]

theorem harvest_eq :
    harvest table = .ok (concreteTests table acyclic) := by
  obtain ⟨last, ran, listed⟩ := foldlM_gather acyclic
    (List.finRange table.size)
    { marks := Marks.initial table, tests := #[] } (settled_initial acyclic)
  simp only [harvest, ran, listed]
  rfl

/-- In an acyclic table, whatever classes were resolved before, resolving a
class gives its complete tests, and discovery gives those of the concrete
classes in table order. -/
theorem resolve_computes_complete (table : ClassTable)
    (acyclic : table.Acyclic) :
    (∀ marks, Reachable table marks → ∀ position, ∃ next,
      resolve table marks position =
        .ok (next, complete table acyclic position)) ∧
    harvest table = .ok (concreteTests table acyclic) ∧
    (∀ markers segments redefinitions,
      Survey.ofSegments markers segments =
        ({ table := table, redefinitions := redefinitions }, none) →
      findTests markers segments = .ok (concreteTests table acyclic)) := by
  refine ⟨?_, harvest_eq acyclic, ?_⟩
  · intro marks reachable position
    obtain ⟨next, resolved, _⟩ :=
      resolve_settled acyclic (reachable.settled acyclic) position
    exact ⟨next, resolved⟩
  · intro markers segments redefinitions surveyed
    rw [findTests, discover, surveyed]
    simp only [testsOfSurvey, harvest_eq acyclic]

/-! ### A class in front of its parent -/

def derivedSummary : ClassSummary :=
  { name := "Derived"
    segmentNumber := 1
    classType := 7
    superclassName := some "Base"
    annotations := []
    tests := [{ testName := "Derived#stops", annotations := [] }]
    isConcrete := true }

def baseSummary : ClassSummary :=
  { name := "Base"
    segmentNumber := 2
    classType := 4
    superclassName := some "java.lang.Object"
    annotations := []
    tests := [{ testName := "Base#starts", annotations := [] }]
    isConcrete := false }

def derivedTable : ClassTable :=
  ClassTable.empty.append derivedSummary (by simp [ClassTable.empty])

def derivedBeforeBase : ClassTable :=
  derivedTable.append baseSummary (by
    simp [derivedTable, ClassTable.append, ClassTable.empty, derivedSummary,
      baseSummary])

theorem derivedBeforeBase_acyclic : derivedBeforeBase.Acyclic :=
  ClassTable.acyclic_of_parents_below (by decide)

private theorem derivedBeforeBase_complete :
    complete derivedBeforeBase derivedBeforeBase_acyclic ⟨0, by decide⟩ =
      [{ testName := "Derived#stops", annotations := [] },
        { testName := "Derived#starts", annotations := [] }] := by
  have edge : derivedBeforeBase.IsParent ⟨1, by decide⟩ ⟨0, by decide⟩ := by
    decide
  have root : derivedBeforeBase.parent? ⟨1, by decide⟩ = none := by
    rw [Option.eq_none_iff_forall_ne_some]
    intro parent
    rw [ne_eq, ClassTable.parent?_eq_some_iff]
    revert parent
    decide
  rw [complete_of_parent _ edge, complete_of_root _ root]
  decide

theorem derivedBeforeBase_resolves :
    ∃ next, resolve derivedBeforeBase (Marks.initial derivedBeforeBase)
        ⟨0, by decide⟩ =
      .ok (next, [{ testName := "Derived#stops", annotations := [] },
        { testName := "Derived#starts", annotations := [] }]) := by
  obtain ⟨everyCall, _, _⟩ :=
    resolve_computes_complete derivedBeforeBase derivedBeforeBase_acyclic
  rw [← derivedBeforeBase_complete]
  exact everyCall _ Reachable.initial ⟨0, by decide⟩

end JUnit4
end DexCensus
