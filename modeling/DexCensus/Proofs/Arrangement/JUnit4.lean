/-
JUnit4 discovery in rearranged segments.

If no name is defined by two different classes, the classes that discovery
keeps are alike in both orders.  The two tables then hold the same classes at
other places; a class has the same ancestors and the same complete tests, in
the same order, wherever it stands.  Only the order of the classes differs, so
the tests are permuted by whole classes.
-/

import DexCensus.Proofs.Arrangement.Definition
import DexCensus.Proofs.JUnit4.InheritedTest
import DexCensus.Proofs.NameOrder

namespace DexCensus
namespace JUnit4

open Dex

variable {markers : List String}

section Alike

variable {left right : Definition}

theorem HasName.alike {name : String} (named : HasName left name)
    (alike : left.Alike right) : HasName right name :=
  (alike.same (fun segment classDef => segment.className classDef.classType)
    fun _ _ => rfl).trans named

private theorem ownTests_alike {segment other : IndexedSegment}
    (alike : segment.Alike other) (classDef : ClassDef)
    (directory : Option Directory) (className : String)
    (entries : List TestAnnotation) :
    ownTests markers other classDef directory className entries =
      ownTests markers segment classDef directory className entries := by
  cases directory with
  | none => rfl
  | some directory =>
      have sameMethods := alike.reordered.same Segment.virtualMethodIndices
        fun _ _ => rfl
      have sameName := alike.reordered.same Segment.methodName fun _ _ => rfl
      have sameTest (method : UInt32) :
          markedTest? markers other directory className entries method =
            markedTest? markers segment directory className entries method := by
        unfold markedTest?
        rw [alike.methodAnnotations, sameName]
      unfold ownTests markedTests
      simp only [sameMethods, funext sameTest]

theorem Summarizes.alike {summary : ClassSummary}
    (summarizes : Summarizes markers left summary)
    (alike : left.Alike right) :
    Summarizes markers right
      { summary with segmentNumber := right.segmentNumber } := by
  have sameSuperclass := alike.same superclassName? fun _ _ => rfl
  have sameDirectory := alike.same Segment.directory? fun _ _ => rfl
  constructor
  case name => exact summarizes.name.alike alike
  case segmentNumber => rfl
  case classType =>
    rw [alike.classDef]
    exact summarizes.classType
  case superclassName => exact sameSuperclass.trans summarizes.superclassName
  case isConcrete =>
    rw [alike.classDef]
    exact summarizes.isConcrete
  case contents =>
    obtain ⟨directory, read, resolved, listed⟩ := summarizes.contents
    refine ⟨directory, sameDirectory.trans read, ?_, ?_⟩
    · rw [alike.segment.classAnnotations]
      exact resolved
    · rw [alike.classDef, ownTests_alike alike.segment]
      exact listed

end Alike

def AgreeByName (definitions : List Definition) : Prop :=
  ∀ left ∈ definitions, ∀ right ∈ definitions, ∀ name,
    HasName left name → HasName right name → left.Alike right

section Correspond

variable {before after : List Definition}

theorem AgreeByName.correspond (agree : AgreeByName before)
    (correspond : Correspond before after) : AgreeByName after := by
  intro left leftMember right rightMember name leftNamed rightNamed
  obtain ⟨first, firstMember, leftAlike⟩ :=
    correspond.backward left leftMember
  obtain ⟨second, secondMember, rightAlike⟩ :=
    correspond.backward right rightMember
  have alike := agree first firstMember second secondMember name
    (leftNamed.alike leftAlike) (rightNamed.alike rightAlike)
  exact (leftAlike.trans alike).trans rightAlike.symm

private theorem Kept.correspond {definition : Definition} {name : String}
    (kept : Kept before definition) (named : HasName definition name)
    (agree : AgreeByName before) (correspond : Correspond before after) :
    ∃ other, Kept after other ∧ definition.Alike other := by
  obtain ⟨found, foundMember, foundAlike⟩ :=
    correspond.forward definition kept.mem
  have foundNamed := named.alike foundAlike
  obtain ⟨other, otherKept, otherNamed⟩ := exists_kept foundMember foundNamed
  have alike := agree.correspond correspond found foundMember other
    otherKept.mem name foundNamed otherNamed
  exact ⟨other, otherKept, foundAlike.trans alike⟩

end Correspond

theorem DistinctNames.agreeByName {definitions : List Definition}
    (distinct : DistinctNames definitions)
    (reflexive : ∀ definition ∈ definitions, definition.Alike definition) :
    AgreeByName definitions := by
  intro left leftMember right rightMember name leftNamed rightNamed
  by_cases same : left = right
  · rw [same]
    exact reflexive right rightMember
  · have symmetric : Std.Symm fun first second : Definition =>
        ∀ name, HasName first name → ¬ HasName second name :=
      ⟨fun _ _ apart name secondNamed firstNamed =>
        apart name firstNamed secondNamed⟩
    have apart := List.Pairwise.forall distinct leftMember rightMember same
    exact (apart name leftNamed rightNamed).elim

/-! ### The same classes at other places -/

/-- The class at a place of one table stands at some place of the other, and
every place is that of a class. -/
structure Places (source target : ClassTable)
    (place : Fin source.size → Fin target.size) : Prop where
  same : ∀ position, target.get (place position) =
    { source.get position with
      segmentNumber := (target.get (place position)).segmentNumber }
  reached : ∀ position, ∃ origin, place origin = position

private theorem Represents.exists_places {source target : ClassTable}
    {before after : List Definition}
    (representsSource : Represents markers source before)
    (representsTarget : Represents markers target after)
    (agree : AgreeByName before) (correspond : Correspond before after) :
    ∃ place, Places source target place := by
  have one (position : Fin source.size) : ∃ other, target.get other =
      { source.get position with
        segmentNumber := (target.get other).segmentNumber } := by
    obtain ⟨definition, stands⟩ := representsSource.exists_definition position
    obtain ⟨found, kept, alike⟩ := stands.kept.correspond
      stands.summarizes.name agree correspond
    obtain ⟨other, standsOther⟩ := representsTarget.exists_position kept
    have same := standsOther.summarizes.unique (stands.summarizes.alike alike)
    refine ⟨other, ?_⟩
    rw [standsOther.summarizes.segmentNumber]
    exact same
  choose place same using one
  refine ⟨place, same, ?_⟩
  -- Names are distinct in the target, so the way back ends where it began.
  intro position
  obtain ⟨definition, stands⟩ := representsTarget.exists_definition position
  obtain ⟨found, kept, alike⟩ := stands.kept.correspond stands.summarizes.name
    (agree.correspond correspond) correspond.symm
  obtain ⟨origin, standsOrigin⟩ := representsSource.exists_position kept
  refine ⟨origin, target.eq_of_name_eq ?_⟩
  rw [same origin]
  exact standsOrigin.summarizes.name.unique
    (stands.summarizes.name.alike alike)

namespace Places

variable {source target : ClassTable}
  {place : Fin source.size → Fin target.size}

private theorem injective (places : Places source target place) :
    Function.Injective place := by
  intro left right samePlace
  have leftSame := congrArg ClassSummary.name (places.same left)
  have rightSame := congrArg ClassSummary.name (places.same right)
  rw [samePlace, rightSame] at leftSame
  exact source.eq_of_name_eq leftSame.symm

theorem isParent_iff (places : Places source target place)
    (parent child : Fin source.size) :
    target.IsParent (place parent) (place child) ↔
      source.IsParent parent child := by
  unfold ClassTable.IsParent
  rw [places.same parent, places.same child]

private theorem acyclic (places : Places source target place)
    (targetAcyclic : target.Acyclic) : source.Acyclic := by
  intro position cycle
  have moved := cycle.lift place fun parent child edge =>
    (places.isParent_iff parent child).mpr edge
  exact targetAcyclic _ moved

private theorem completed (places : Places source target place)
    (position : Fin source.size) (inherited : List TestMethod) :
    JUnit4.completed (target.get (place position)) inherited =
      JUnit4.completed (source.get position) inherited := by
  rw [places.same position]
  rfl

private theorem complete (places : Places source target place)
    (sourceAcyclic : source.Acyclic) (targetAcyclic : target.Acyclic)
    (position : Fin source.size) :
    JUnit4.complete target targetAcyclic (place position) =
      JUnit4.complete source sourceAcyclic position := by
  induction position using sourceAcyclic.wellFounded.induction with
  | _ position ih =>
      cases above : source.parent? position with
      | none =>
          -- A parent in the target would be the place of one in the source.
          have root : target.parent? (place position) = none := by
            rw [Option.eq_none_iff_forall_ne_some]
            intro other found
            obtain ⟨origin, rfl⟩ := places.reached other
            have edge := (target.parent?_eq_some_iff _ _).mp found
            have sourceEdge := (places.isParent_iff _ _).mp edge
            rw [(source.parent?_eq_some_iff _ _).mpr sourceEdge] at above
            cases above
          rw [complete_of_root _ root, complete_of_root _ above,
            places.completed]
      | some parent =>
          have edge := (source.parent?_eq_some_iff parent position).mp above
          have targetEdge := (places.isParent_iff parent position).mpr edge
          rw [complete_of_parent _ targetEdge, complete_of_parent _ edge,
            places.completed, ih parent edge]

theorem perm (places : Places source target place) :
    ((List.finRange source.size).map place).Perm
      (List.finRange target.size) := by
  rw [List.perm_ext_iff_of_nodup
    ((List.nodup_finRange _).map places.injective) (List.nodup_finRange _)]
  intro position
  simp only [List.mem_map, List.mem_finRange, true_and, iff_true]
  exact places.reached position

/-- The tests found in one table are those of the other one, its classes taken
in another order. -/
theorem concreteTests_eq (places : Places source target place)
    (sourceAcyclic : source.Acyclic) (targetAcyclic : target.Acyclic) :
    concreteTests source sourceAcyclic =
      (((List.finRange source.size).map place).filter fun position =>
        (target.get position).isConcrete).flatMap
          (JUnit4.complete target targetAcyclic) := by
  have sameConcrete (position : Fin source.size) :
      (target.get (place position)).isConcrete =
        (source.get position).isConcrete := by
    rw [places.same position]
  unfold concreteTests
  rw [List.filter_map, List.flatMap_map]
  simp only [Function.comp_def, sameConcrete,
    places.complete sourceAcyclic targetAcyclic]

private theorem concreteTests_perm (places : Places source target place)
    (sourceAcyclic : source.Acyclic) (targetAcyclic : target.Acyclic) :
    (concreteTests source sourceAcyclic).Perm
      (concreteTests target targetAcyclic) := by
  rw [places.concreteTests_eq sourceAcyclic targetAcyclic]
  exact List.Perm.flatMap_right _ (places.perm.filter _)

end Places

/-! ### The tests of one name -/

private theorem flatMap_eq_of_perm {α β : Type} {left right : List α}
    (perm : left.Perm right) (listed : α → List β)
    (exchange : ∀ first second,
      listed first ++ listed second = listed second ++ listed first) :
    left.flatMap listed = right.flatMap listed := by
  induction perm with
  | nil => rfl
  | cons value _ ih => rw [List.flatMap_cons, List.flatMap_cons, ih]
  | swap first second rest =>
      simp only [List.flatMap_cons]
      rw [← List.append_assoc, ← List.append_assoc, exchange]
  | trans _ _ first second => rw [first, second]

theorem WellNamed.position_unique {table : ClassTable}
    (wellNamed : WellNamed table) (acyclic : table.Acyclic)
    {left right : Fin table.size} {first second : TestMethod}
    (leftMember : first ∈ complete table acyclic left)
    (rightMember : second ∈ complete table acyclic right)
    (same : first.testName = second.testName) : left = right := by
  obtain ⟨_, leftMethod, _, _, leftNamed⟩ :=
    ancestor_of_mem_complete acyclic wellNamed left first leftMember
  obtain ⟨_, rightMethod, _, _, rightNamed⟩ :=
    ancestor_of_mem_complete acyclic wellNamed right second rightMember
  have sameParts := leftNamed.symm.trans (same.trans rightNamed)
  exact table.eq_of_name_eq (TestName.ofParts_inj (wellNamed.plain left)
    (wellNamed.plain right) sameParts).1

private theorem WellNamed.exchange {table : ClassTable}
    (wellNamed : WellNamed table)
    (acyclic : table.Acyclic) (name : String) (left right : Fin table.size) :
    TestMethod.ofName name (complete table acyclic left) ++
        TestMethod.ofName name (complete table acyclic right) =
      TestMethod.ofName name (complete table acyclic right) ++
        TestMethod.ofName name (complete table acyclic left) := by
  by_cases same : left = right
  · rw [same]
  · have oneEmpty : TestMethod.ofName name (complete table acyclic left) = [] ∨
        TestMethod.ofName name (complete table acyclic right) = [] := by
      apply Classical.byContradiction
      intro neither
      rw [not_or] at neither
      obtain ⟨first, firstMember⟩ := List.exists_mem_of_ne_nil _ neither.1
      obtain ⟨second, secondMember⟩ := List.exists_mem_of_ne_nil _ neither.2
      obtain ⟨inLeft, firstNamed⟩ :=
        (TestMethod.mem_ofName_iff _ _ _).mp firstMember
      obtain ⟨inRight, secondNamed⟩ :=
        (TestMethod.mem_ofName_iff _ _ _).mp secondMember
      exact same (wellNamed.position_unique acyclic inLeft inRight
        (firstNamed.trans secondNamed.symm))
    rcases oneEmpty with empty | empty
    · rw [empty, List.nil_append, List.append_nil]
    · rw [empty, List.nil_append, List.append_nil]

private theorem Places.ofName_concreteTests {source target : ClassTable}
    {place : Fin source.size → Fin target.size}
    (places : Places source target place) (sourceAcyclic : source.Acyclic)
    (targetAcyclic : target.Acyclic) (wellNamed : WellNamed target)
    (name : String) :
    TestMethod.ofName name (concreteTests source sourceAcyclic) =
      TestMethod.ofName name (concreteTests target targetAcyclic) := by
  rw [places.concreteTests_eq sourceAcyclic targetAcyclic, concreteTests,
    TestMethod.ofName_flatMap, TestMethod.ofName_flatMap]
  exact flatMap_eq_of_perm (places.perm.filter _) _
    (wellNamed.exchange targetAcyclic name)

/-- The same tests are found in another order; if names of classes have no
separator, the tests of each name stand in the same order. -/
structure SameTests (plain : Prop) (before after : List TestMethod) :
    Prop where
  perm : before.Perm after
  ofName : plain → ∀ name,
    TestMethod.ofName name before = TestMethod.ofName name after

theorem findTests_follows {left right : List IndexedSegment}
    (agree : AgreeByName (classDefinitions left))
    (correspond : Correspond (classDefinitions left)
      (classDefinitions right)) :
    Follows (SameTests (PlainNames (classDefinitions left)))
      (findTests markers left) (findTests markers right) := by
  intro tests found
  obtain ⟨survey, surveyed, acyclic, rfl⟩ :=
    (findTests_eq_ok_iff left tests).mp found
  have represents := Survey.represents_of_ofSegments surveyed
  rcases Survey.ofSegments_cases markers right with
    ⟨other, otherSurveyed, otherRepresents⟩ | ⟨_, error, _, definition, member,
      failed⟩
  · -- The classes of the right table are taken to those of the left one, so
    -- that a cycle on the right would be one on the left.
    obtain ⟨place, places⟩ := otherRepresents.exists_places represents
      (agree.correspond correspond) correspond.symm
    have otherAcyclic := places.acyclic acyclic
    refine ⟨concreteTests other.table otherAcyclic,
      (findTests_eq_ok_iff right _).mpr ⟨other, otherSurveyed, otherAcyclic,
        rfl⟩, ?_⟩
    constructor
    case perm => exact (places.concreteTests_perm otherAcyclic acyclic).symm
    case ofName =>
      intro plain name
      exact (places.ofName_concreteTests otherAcyclic acyclic
        (represents.wellNamed plain) name).symm
  · -- What cannot be summarized on the right cannot be on the left either.
    obtain ⟨origin, originMember, alike⟩ :=
      correspond.backward definition member
    obtain ⟨summary, summarizes⟩ := represents.readable origin originMember
    have read := (summarize_eq_ok_iff definition _).mpr
      (summarizes.alike alike.symm)
    rw [failed] at read
    cases read

end JUnit4
end DexCensus
