/-
Which class definitions discovery keeps, and what it learns about one.

A name may be defined several times; the last definition of a name is kept.
A kept definition has another one as its parent if it names it as its
superclass, in whatever segments the two stand.
-/

import DexCensus.JUnit4.Discovery
import DexCensus.Proofs.Computation
import Mathlib.Data.List.Induction

namespace DexCensus
namespace JUnit4

open Dex

variable {markers : List String}

def HasName (definition : Definition) (name : String) : Prop :=
  definition.segment.className definition.classDef.classType = .ok name

def HasSuperclassName (definition : Definition) (name : String) : Prop :=
  superclassName? definition.segment.toSegment definition.classDef =
    .ok (some name)

theorem HasName.unique {definition : Definition} {left right : String}
    (first : HasName definition left) (second : HasName definition right) :
    left = right :=
  Except.ok.inj (first.symm.trans second)

theorem HasSuperclassName.unique {definition : Definition}
    {left right : String} (first : HasSuperclassName definition left)
    (second : HasSuperclassName definition right) : left = right :=
  Option.some.inj (Except.ok.inj (first.symm.trans second))

theorem HasName.apart {left right : Definition} {leftName rightName : String}
    (first : HasName left leftName) (second : HasName right rightName)
    (differ : leftName ≠ rightName) :
    ∀ name, HasName left name → ¬ HasName right name :=
  fun _ named otherNamed =>
    differ ((first.unique named).trans (otherNamed.unique second))

theorem hasSuperclassName_of_type {definition : Definition} (type : UInt32)
    {name : String} (known : definition.classDef.superclass? = some type)
    (named : definition.segment.className type = .ok name) :
    HasSuperclassName definition name := by
  obtain ⟨descriptor, read, formed⟩ := bind_eq_ok_iff.mp named
  have described : definition.segment.superclassDescriptor?
      definition.classDef = .ok (some descriptor) := by
    simp only [Segment.superclassDescriptor?, known]
    exact bind_eq_ok_iff.mpr ⟨descriptor, read, rfl⟩
  exact bind_eq_ok_iff.mpr ⟨_, described,
    bind_eq_ok_iff.mpr ⟨name, formed, rfl⟩⟩

/-- The definitions of classes that are not interfaces, in order. -/
def classDefinitions (segments : List IndexedSegment) : List Definition :=
  (Definition.ofSegments segments).filter fun definition =>
    !definition.classDef.isInterface

/-! ### The last definition of a name -/

/-- A definition that no later one of the same name replaces. -/
def Kept (definitions : List Definition) (definition : Definition) : Prop :=
  ∃ earlier later, definitions = earlier ++ definition :: later ∧
    ∀ other ∈ later, ∀ name, HasName definition name → ¬ HasName other name

theorem Kept.mem {definitions : List Definition} {definition : Definition}
    (kept : Kept definitions definition) : definition ∈ definitions := by
  obtain ⟨earlier, later, whole, _⟩ := kept
  rw [whole]
  exact List.mem_append_right earlier List.mem_cons_self

@[simp] theorem not_kept_nil (definition : Definition) :
    ¬ Kept [] definition :=
  fun kept => List.not_mem_nil kept.mem

theorem kept_concat_iff (definitions : List Definition)
    (last definition : Definition) :
    Kept (definitions ++ [last]) definition ↔
      definition = last ∨ (Kept definitions definition ∧
        ∀ name, HasName definition name → ¬ HasName last name) := by
  constructor
  · intro ⟨earlier, later, whole, fresh⟩
    rcases List.eq_nil_or_concat later with rfl | ⟨front, final, rfl⟩
    · obtain ⟨_, same⟩ := List.append_inj' whole rfl
      exact Or.inl (List.cons.inj same).1.symm
    · rw [List.concat_eq_append, ← List.cons_append, ← List.append_assoc]
        at whole
      obtain ⟨before, same⟩ := List.append_inj' whole rfl
      have isLast : last = final := (List.cons.inj same).1
      subst isLast
      refine Or.inr ⟨⟨earlier, front, before, ?_⟩, ?_⟩
      · intro other member
        exact fresh other (by simp [member])
      · exact fresh last (by simp)
  · intro kept
    rcases kept with rfl | ⟨⟨earlier, later, whole, fresh⟩, notLast⟩
    · exact ⟨definitions, [], rfl, by simp⟩
    · refine ⟨earlier, later ++ [last], by simp [whole], ?_⟩
      intro other member
      rcases List.mem_append.mp member with old | isLast
      · exact fresh other old
      · rw [List.mem_singleton.mp isLast]
        exact notLast

theorem exists_kept {definitions : List Definition} {definition : Definition}
    {name : String} (member : definition ∈ definitions)
    (named : HasName definition name) :
    ∃ kept, Kept definitions kept ∧ HasName kept name := by
  induction definitions using List.reverseRecOn with
  | nil => exact (List.not_mem_nil member).elim
  | append_singleton front last ih =>
      by_cases lastNamed : HasName last name
      · exact ⟨last, (kept_concat_iff front last last).mpr (Or.inl rfl),
          lastNamed⟩
      · have inFront : definition ∈ front := by
          rcases List.mem_append.mp member with old | isLast
          · exact old
          · rw [List.mem_singleton.mp isLast] at named
            exact (lastNamed named).elim
        obtain ⟨kept, keptInFront, keptNamed⟩ := ih inFront
        refine ⟨kept, (kept_concat_iff front last kept).mpr
          (Or.inr ⟨keptInFront, ?_⟩), keptNamed⟩
        intro other otherNamed
        rw [otherNamed.unique keptNamed]
        exact lastNamed

theorem Kept.unique {definitions : List Definition} {left right : Definition}
    {name : String} (leftKept : Kept definitions left)
    (rightKept : Kept definitions right) (leftNamed : HasName left name)
    (rightNamed : HasName right name) : left = right := by
  induction definitions using List.reverseRecOn with
  | nil => exact (not_kept_nil left leftKept).elim
  | append_singleton front last ih =>
      rcases (kept_concat_iff front last left).mp leftKept with
        rfl | ⟨leftInFront, leftNotLast⟩
      · rcases (kept_concat_iff front left right).mp rightKept with
          rfl | ⟨_, rightNotLast⟩
        · rfl
        · exact (rightNotLast name rightNamed leftNamed).elim
      · rcases (kept_concat_iff front last right).mp rightKept with
          rfl | ⟨rightInFront, _⟩
        · exact (leftNotLast name leftNamed rightNamed).elim
        · exact ih leftInFront rightInFront

def DistinctNames (definitions : List Definition) : Prop :=
  definitions.Pairwise fun earlier later =>
    ∀ name, HasName earlier name → ¬ HasName later name

theorem DistinctNames.kept {definitions : List Definition}
    (distinct : DistinctNames definitions) {definition : Definition}
    (member : definition ∈ definitions) : Kept definitions definition := by
  obtain ⟨earlier, later, whole⟩ := List.append_of_mem member
  refine ⟨earlier, later, whole, ?_⟩
  rw [DistinctNames, whole] at distinct
  exact (List.pairwise_cons.mp (List.pairwise_append.mp distinct).2.1).1

/-- One kept definition is named by another one as its superclass. -/
structure KeptParent (definitions : List Definition)
    (parent child : Definition) : Prop where
  parentKept : Kept definitions parent
  childKept : Kept definitions child
  named : ∃ name, HasName parent name ∧ HasSuperclassName child name

/-- What the summary of a definition says. -/
structure Summarizes (markers : List String) (definition : Definition)
    (summary : ClassSummary) : Prop where
  name : HasName definition summary.name
  segmentNumber : summary.segmentNumber = definition.segmentNumber
  classType : summary.classType = definition.classDef.classType
  superclassName :
    superclassName? definition.segment.toSegment definition.classDef =
      .ok summary.superclassName
  isConcrete : summary.isConcrete = definition.classDef.isConcrete
  contents : ∃ directory,
    definition.segment.directory? definition.classDef = .ok directory ∧
    definition.segment.classAnnotations directory =
      .ok summary.annotations ∧
    ownTests markers definition.segment definition.classDef directory
      summary.name summary.annotations = .ok summary.tests

theorem summaryOf_eq_ok_iff (definition : Definition) (descriptor : String)
    (summary : ClassSummary)
    (described : definition.segment.classDescriptor definition.classDef =
      .ok descriptor) :
    summaryOf markers definition descriptor = .ok summary ↔
      Summarizes markers definition summary := by
  unfold summaryOf
  constructor
  · intro summed
    obtain ⟨name, named, afterName⟩ := bind_eq_ok_iff.mp summed
    obtain ⟨superclassName, known, afterSuperclass⟩ :=
      bind_eq_ok_iff.mp afterName
    obtain ⟨directory, read, afterDirectory⟩ :=
      bind_eq_ok_iff.mp afterSuperclass
    obtain ⟨annotations, resolved, afterAnnotations⟩ :=
      bind_eq_ok_iff.mp afterDirectory
    obtain ⟨tests, listed, whole⟩ := bind_eq_ok_iff.mp afterAnnotations
    cases whole
    exact {
      name := bind_eq_ok_iff.mpr ⟨descriptor, described, named⟩
      segmentNumber := rfl
      classType := rfl
      superclassName := known
      isConcrete := rfl
      contents := ⟨directory, read, resolved, listed⟩ }
  · intro ⟨name, number, classType, known, isConcrete, contents⟩
    obtain ⟨directory, read, resolved, listed⟩ := contents
    obtain ⟨other, otherDescribed, named⟩ := bind_eq_ok_iff.mp name
    have sameDescriptor : other = descriptor :=
      Except.ok.inj (otherDescribed.symm.trans described)
    subst sameDescriptor
    refine bind_eq_ok_iff.mpr ⟨summary.name, named, ?_⟩
    refine bind_eq_ok_iff.mpr ⟨summary.superclassName, known, ?_⟩
    refine bind_eq_ok_iff.mpr ⟨directory, read, ?_⟩
    refine bind_eq_ok_iff.mpr ⟨summary.annotations, resolved, ?_⟩
    refine bind_eq_ok_iff.mpr ⟨summary.tests, listed, ?_⟩
    cases summary
    cases number
    cases classType
    cases isConcrete
    rfl

theorem summarize_eq_ok_iff (definition : Definition)
    (summary : ClassSummary) :
    summarize markers definition = .ok summary ↔
      Summarizes markers definition summary := by
  unfold summarize
  cases described :
      definition.segment.classDescriptor definition.classDef with
  | error fault =>
      constructor
      · intro impossible
        cases impossible
      · intro summarizes
        obtain ⟨descriptor, known, _⟩ := bind_eq_ok_iff.mp summarizes.name
        have failed :
            definition.segment.typeDescriptor definition.classDef.classType =
              .error fault := described
        rw [failed] at known
        cases known
  | ok descriptor =>
      rw [← summaryOf_eq_ok_iff definition descriptor summary described]
      cases summed : summaryOf markers definition descriptor with
      | error fault => simp [summed]
      | ok found => simp [summed]

theorem Summarizes.unique {definition : Definition}
    {left right : ClassSummary} (first : Summarizes markers definition left)
    (second : Summarizes markers definition right) : left = right := by
  have foundLeft := (summarize_eq_ok_iff definition left).mpr first
  have foundRight := (summarize_eq_ok_iff definition right).mpr second
  exact Except.ok.inj (foundLeft.symm.trans foundRight)

theorem summarizes_of_no_directory {definition : Definition} {name : String}
    {superclassName : Option String} (named : HasName definition name)
    (known : superclassName? definition.segment.toSegment
      definition.classDef = .ok superclassName)
    (noDirectory : definition.classDef.annotationsOffset = 0) :
    Summarizes markers definition
      { name := name
        segmentNumber := definition.segmentNumber
        classType := definition.classDef.classType
        superclassName := superclassName
        annotations := []
        tests := []
        isConcrete := definition.classDef.isConcrete } := by
  have nothingRead :
      definition.segment.directory? definition.classDef = .ok none := by
    simp [Segment.directory?, ClassDef.hasDirectory, noDirectory]
  exact {
    name := named
    segmentNumber := rfl
    classType := rfl
    superclassName := known
    isConcrete := rfl
    contents := ⟨none, nothingRead, rfl, rfl⟩ }

end JUnit4
end DexCensus
