/-
When values, annotations and tests are the same.

Two values are identical if they are the same tree, where floating-point
numbers are their bits and the values of an annotation are a map from names to
values.  A value is kept as a tree of lists.  If the names in each of them
ascend, it is proper, and proper values are identical only if they are equal.
Annotations and tests follow.
-/

import DexCensus.Proofs.NamedValues
import DexCensus.TestMethod
import Mathlib.Data.List.Forall2

namespace DexCensus

namespace Value

def isLeaf : Value → Bool
  | .array _ | .nested _ _ => false
  | _ => true

/-- Two values are the same tree.  A leaf is identical to itself only, arrays
agree place by place, and annotations have the same name and agree as maps: in
the names they have and in the value at each of them. -/
inductive Identical : Value → Value → Prop
  | leaf {value : Value} : value.isLeaf = true → Identical value value
  | array {lefts rights : List Value} :
      lefts.length = rights.length →
      (∀ place (inLefts : place < lefts.length)
        (inRights : place < rights.length),
        Identical lefts[place] rights[place]) →
        Identical (.array lefts) (.array rights)
  | nested {name : String} {lefts rights : NamedValues} :
      (∀ key, key ∈ lefts.map Prod.fst ↔ key ∈ rights.map Prod.fst) →
      (∀ key left right, (key, left) ∈ lefts → (key, right) ∈ rights →
        Identical left right) →
        Identical (.nested name lefts) (.nested name rights)

/-- The names of each annotation within a value ascend, so it is a map. -/
inductive Proper : Value → Prop
  | leaf {value : Value} : value.isLeaf = true → Proper value
  | array {values : List Value} :
      (∀ value ∈ values, Proper value) → Proper (.array values)
  | nested {name : String} {values : NamedValues} :
      values.Ascending → (∀ pair ∈ values, Proper pair.2) →
        Proper (.nested name values)

end Value

namespace NamedValues

structure SameMap (lefts rights : NamedValues) : Prop where
  keys : ∀ key, key ∈ lefts.map Prod.fst ↔ key ∈ rights.map Prod.fst
  values : ∀ key left right, (key, left) ∈ lefts → (key, right) ∈ rights →
    left.Identical right

structure Proper (values : NamedValues) : Prop where
  ascending : values.Ascending
  each : ∀ pair ∈ values, pair.2.Proper

end NamedValues

structure TestAnnotation.Identical (left right : TestAnnotation) : Prop where
  name : left.name = right.name
  values : left.values.SameMap right.values
  inherited : left.inherited = right.inherited

structure TestMethod.Identical (left right : TestMethod) : Prop where
  testName : left.testName = right.testName
  annotations : List.Forall₂ TestAnnotation.Identical
    left.annotations right.annotations

def TestMethod.Proper (method : TestMethod) : Prop :=
  ∀ entry ∈ method.annotations, entry.values.Proper

/-! ### Proper trees are identical only to themselves -/

namespace NamedValues

private theorem Ascending.value_unique {values : NamedValues}
    (ascending : values.Ascending) {key : String} {left right : Value}
    (leftListed : (key, left) ∈ values)
    (rightListed : (key, right) ∈ values) : left = right := by
  induction values with
  | nil => cases leftListed
  | cons head rest ih =>
      obtain ⟨headFirst, restAscending⟩ := List.pairwise_cons.mp ascending
      rcases List.mem_cons.mp leftListed with leftHead | leftRest <;>
        rcases List.mem_cons.mp rightListed with rightHead | rightRest
      · exact congrArg Prod.snd (leftHead.trans rightHead.symm)
      · subst leftHead
        exact (headFirst _ rightRest).ne rfl |>.elim
      · subst rightHead
        exact (headFirst _ leftRest).ne rfl |>.elim
      · exact ih restAscending leftRest rightRest

private theorem subset_of_agree {lefts rights : NamedValues}
    (keys : ∀ key ∈ lefts.map Prod.fst, key ∈ rights.map Prod.fst)
    (agree : ∀ key left right, (key, left) ∈ lefts → (key, right) ∈ rights →
      left = right) : ∀ pair ∈ lefts, pair ∈ rights := by
  intro ⟨key, left⟩ member
  obtain ⟨⟨other, right⟩, found, rfl⟩ := List.mem_map.mp
    (keys key (List.mem_map_of_mem member))
  rw [agree _ _ _ member found]
  exact found

private theorem Ascending.eq_of_agree {lefts rights : NamedValues}
    (leftAscending : lefts.Ascending) (rightAscending : rights.Ascending)
    (keys : ∀ key, key ∈ lefts.map Prod.fst ↔ key ∈ rights.map Prod.fst)
    (agree : ∀ key left right, (key, left) ∈ lefts → (key, right) ∈ rights →
      left = right) : lefts = rights := by
  apply leftAscending.ext rightAscending
  intro pair
  constructor
  · exact subset_of_agree (fun key => (keys key).mp) agree pair
  · apply subset_of_agree (fun key => (keys key).mpr)
    intro key right left inRights inLefts
    exact (agree key left right inLefts inRights).symm

end NamedValues

namespace Value

/-- Induction where a value comes after the values in it. -/
theorem parts_induction {motive : Value → Prop}
    (leaf : ∀ value : Value, value.isLeaf = true → motive value)
    (array : ∀ values, (∀ value ∈ values, motive value) →
      motive (.array values))
    (nested : ∀ name values, (∀ pair ∈ values, motive pair.2) →
      motive (.nested name values))
    (value : Value) : motive value := by
  have below := (measure fun value : Value => sizeOf value).wf
  induction value using below.induction with
  | _ value ih =>
      cases value with
      | array values =>
          apply array
          intro part member
          have smaller := List.sizeOf_lt_of_mem member
          apply ih
          simp only [WellFoundedRelation.rel, InvImage, Value.array.sizeOf_spec]
          omega
      | nested name values =>
          apply nested
          intro pair member
          have smaller := List.sizeOf_lt_of_mem member
          rw [Prod.mk.sizeOf_spec] at smaller
          apply ih
          simp only [WellFoundedRelation.rel, InvImage,
            Value.nested.sizeOf_spec]
          omega
      | _ => exact leaf _ rfl

theorem proper_array_iff (values : List Value) :
    (array values).Proper ↔ ∀ value ∈ values, value.Proper := by
  constructor
  · intro proper
    cases proper with
    | leaf isLeaf => cases isLeaf
    | array each => exact each
  · exact .array

theorem proper_nested_iff (name : String) (values : NamedValues) :
    (nested name values).Proper ↔ values.Proper := by
  constructor
  · intro proper
    cases proper with
    | leaf isLeaf => cases isLeaf
    | nested ascending each => exact ⟨ascending, each⟩
  · intro proper
    exact .nested proper.ascending proper.each

private theorem identical_nested_iff (leftName rightName : String)
    (lefts rights : NamedValues) :
    (nested leftName lefts).Identical (nested rightName rights) ↔
      leftName = rightName ∧ lefts.SameMap rights := by
  constructor
  · intro identical
    cases identical with
    | leaf isLeaf => cases isLeaf
    | nested keys values => exact ⟨rfl, keys, values⟩
  · rintro ⟨rfl, keys, values⟩
    exact .nested keys values

private theorem Proper.identical_self {value : Value} (proper : value.Proper) :
    value.Identical value := by
  induction proper with
  | leaf isLeaf => exact .leaf isLeaf
  | array _ ih =>
      exact .array rfl fun place inside _ => ih _ (List.getElem_mem inside)
  | nested ascending _ ih =>
      refine .nested (fun _ => Iff.rfl) fun key left right inLeft inRight => ?_
      rw [← ascending.value_unique inLeft inRight]
      exact ih _ inLeft

private theorem eq_of_identical (left : Value) :
    ∀ right, left.Proper → right.Proper → left.Identical right →
      left = right := by
  induction left using parts_induction with
  | leaf left isLeaf =>
      intro right _ _ identical
      cases identical with
      | leaf => rfl
      | array | nested => cases isLeaf
  | array lefts ih =>
      intro right properLeft properRight identical
      cases identical with
      | leaf => rfl
      | array sameLength samePlaces =>
          rw [proper_array_iff] at properLeft properRight
          congr 1
          apply List.ext_getElem sameLength
          intro place inLefts inRights
          have leftMember := List.getElem_mem inLefts
          have rightMember := List.getElem_mem inRights
          exact ih _ leftMember _ (properLeft _ leftMember)
            (properRight _ rightMember) (samePlaces place inLefts inRights)
  | nested name lefts ih =>
      intro right properLeft properRight identical
      cases identical with
      | leaf => rfl
      | nested keys values =>
          rw [proper_nested_iff] at properLeft properRight
          congr 1
          apply properLeft.ascending.eq_of_agree properRight.ascending keys
          intro key leftValue rightValue inLefts inRights
          exact ih _ inLefts _ (properLeft.each _ inLefts)
            (properRight.each _ inRights) (values _ _ _ inLefts inRights)

theorem Proper.identical_iff {left right : Value} (properLeft : left.Proper)
    (properRight : right.Proper) : left.Identical right ↔ left = right := by
  constructor
  · exact left.eq_of_identical right properLeft properRight
  · intro same
    rw [← same]
    exact properLeft.identical_self

end Value

private theorem NamedValues.Proper.sameMap_iff {lefts rights : NamedValues}
    (properLeft : lefts.Proper) (properRight : rights.Proper) :
    lefts.SameMap rights ↔ lefts = rights := by
  have asValues := Value.Proper.identical_iff
    ((Value.proper_nested_iff "" lefts).mpr properLeft)
    ((Value.proper_nested_iff "" rights).mpr properRight)
  simpa [Value.identical_nested_iff] using asValues

theorem TestAnnotation.identical_iff {left right : TestAnnotation}
    (properLeft : left.values.Proper) (properRight : right.values.Proper) :
    left.Identical right ↔ left = right := by
  constructor
  · intro ⟨name, values, inherited⟩
    rw [properLeft.sameMap_iff properRight] at values
    cases left
    cases right
    congr
  · intro same
    rw [← same]
    exact ⟨rfl, (properLeft.sameMap_iff properLeft).mpr rfl, rfl⟩

theorem TestMethod.Proper.identical_iff {left right : TestMethod}
    (properLeft : left.Proper) (properRight : right.Proper) :
    left.Identical right ↔ left = right := by
  constructor
  · intro ⟨testName, annotations⟩
    have same : left.annotations = right.annotations := by
      rw [List.forall₂_iff_zip] at annotations
      rw [← List.forall₂_eq_eq_eq, List.forall₂_iff_zip]
      refine ⟨annotations.1, fun {leftEntry rightEntry} zipped => ?_⟩
      obtain ⟨inLeft, inRight⟩ := List.of_mem_zip zipped
      rw [← TestAnnotation.identical_iff (properLeft leftEntry inLeft)
        (properRight rightEntry inRight)]
      exact annotations.2 zipped
    cases left
    cases right
    congr
  · intro same
    rw [← same]
    refine ⟨rfl, List.forall₂_same.mpr fun entry member => ?_⟩
    exact TestAnnotation.identical_iff (properLeft entry member)
      (properLeft entry member) |>.mpr rfl

end DexCensus
