/-
Lists of tests in order of their names.

Sorting is stable: the tests of one name stand in the sorted list as they
stood before.  A sorted list is determined by the tests of each name, so two
lists that agree on those are sorted to the same list; the names alone depend
only on which tests there are.
-/

import DexCensus.TestMethod
import Mathlib.Data.List.Basic
import Mathlib.Data.List.Sort

namespace DexCensus
namespace TestMethod

def Sorted (methods : List TestMethod) : Prop :=
  methods.Pairwise fun earlier later => earlier.testName ≤ later.testName

theorem nameLe_iff (left right : TestMethod) :
    nameLe left right = true ↔ left.testName ≤ right.testName := by
  exact isLE_compareOfLessAndEq String.le_antisymm String.not_le
    String.le_total

theorem nameLe_trans (first second third : TestMethod)
    (before : nameLe first second = true)
    (after : nameLe second third = true) : nameLe first third = true := by
  rw [nameLe_iff] at before after ⊢
  exact String.le_trans before after

theorem nameLe_total (left right : TestMethod) :
    (nameLe left right || nameLe right left) = true := by
  rw [Bool.or_eq_true, nameLe_iff, nameLe_iff]
  exact String.le_total left.testName right.testName

theorem sortedByName_perm (methods : List TestMethod) :
    (sortedByName methods).Perm methods :=
  List.mergeSort_perm methods nameLe

theorem sortedByName_sorted (methods : List TestMethod) :
    Sorted (sortedByName methods) :=
  (List.pairwise_mergeSort nameLe_trans nameLe_total methods).imp
    fun ordered => (nameLe_iff _ _).mp ordered

/-! ### The tests of one name -/

def ofName (name : String) (methods : List TestMethod) : List TestMethod :=
  methods.filter fun method => decide (method.testName = name)

@[simp] theorem mem_ofName_iff (name : String) (methods : List TestMethod)
    (method : TestMethod) :
    method ∈ ofName name methods ↔
      method ∈ methods ∧ method.testName = name := by
  rw [ofName, List.mem_filter, decide_eq_true_eq]

@[simp] theorem ofName_append (name : String) (left right : List TestMethod) :
    ofName name (left ++ right) = ofName name left ++ ofName name right :=
  List.filter_append left right

theorem ofName_flatMap {α : Type} (name : String) (values : List α)
    (listed : α → List TestMethod) :
    ofName name (values.flatMap listed) =
      values.flatMap fun value => ofName name (listed value) :=
  List.filter_flatMap ..

private theorem ofName_cons_of_eq {name : String} {method : TestMethod}
    (same : method.testName = name) (rest : List TestMethod) :
    ofName name (method :: rest) = method :: ofName name rest :=
  List.filter_cons_of_pos (decide_eq_true same)

private theorem ofName_cons_of_ne {name : String} {method : TestMethod}
    (differ : method.testName ≠ name) (rest : List TestMethod) :
    ofName name (method :: rest) = ofName name rest :=
  List.filter_cons_of_neg fun same => differ (of_decide_eq_true same)

theorem ofName_perm (name : String) {left right : List TestMethod}
    (perm : left.Perm right) : (ofName name left).Perm (ofName name right) :=
  List.Perm.filter _ perm

theorem ofName_sortedByName (name : String) (methods : List TestMethod) :
    ofName name (sortedByName methods) = ofName name methods := by
  have alike : (ofName name methods).Pairwise fun earlier later =>
      nameLe earlier later = true := by
    rw [List.pairwise_iff_forall_sublist]
    intro earlier later sublist
    have first := (mem_ofName_iff name methods earlier).mp
      (sublist.subset (by simp))
    have second := (mem_ofName_iff name methods later).mp
      (sublist.subset (by simp))
    have sameName := first.2.trans second.2.symm
    exact (nameLe_iff earlier later).mpr (sameName ▸ String.le_refl _)
  have kept : (ofName name methods).Sublist (sortedByName methods) :=
    List.sublist_mergeSort nameLe_trans nameLe_total alike
      List.filter_sublist
  have again : ofName name (ofName name methods) = ofName name methods := by
    rw [ofName, ofName, List.filter_filter]
    simp only [Bool.and_self]
  have inside : (ofName name methods).Sublist
      (ofName name (sortedByName methods)) :=
    again ▸ kept.filter _
  have sameLength :=
    (ofName_perm name (sortedByName_perm methods)).length_eq
  exact (inside.eq_of_length sameLength.symm).symm

private theorem Sorted.eq_of_ofName_eq {left : List TestMethod} :
    ∀ {right : List TestMethod}, Sorted left → Sorted right →
      (∀ name, ofName name left = ofName name right) → left = right := by
  induction left with
  | nil =>
      intro right _ _ agree
      cases right with
      | nil => rfl
      | cons method rest =>
          have here := agree method.testName
          rw [ofName_cons_of_eq rfl] at here
          cases here
  | cons first leftRest ih =>
      intro right leftSorted rightSorted agree
      cases right with
      | nil =>
          have here := agree first.testName
          rw [ofName_cons_of_eq rfl] at here
          cases here
      | cons second rightRest =>
          obtain ⟨firstLeast, leftRestSorted⟩ := List.pairwise_cons.mp leftSorted
          obtain ⟨secondLeast, rightRestSorted⟩ :=
            List.pairwise_cons.mp rightSorted
          have mem_iff (method : TestMethod) :
              method ∈ first :: leftRest ↔ method ∈ second :: rightRest := by
            have here := mem_ofName_iff method.testName (first :: leftRest) method
            have there :=
              mem_ofName_iff method.testName (second :: rightRest) method
            rw [agree] at here
            simpa using here.symm.trans there
          have secondLe : second.testName ≤ first.testName := by
            rcases List.mem_cons.mp ((mem_iff first).mp List.mem_cons_self) with
              rfl | later
            · exact String.le_refl _
            · exact secondLeast first later
          have firstLe : first.testName ≤ second.testName := by
            rcases List.mem_cons.mp ((mem_iff second).mpr List.mem_cons_self)
              with rfl | later
            · exact String.le_refl _
            · exact firstLeast second later
          have sameName : second.testName = first.testName :=
            String.le_antisymm secondLe firstLe
          -- The heads come first among the tests of their common name.
          have heads := agree first.testName
          rw [ofName_cons_of_eq rfl, ofName_cons_of_eq sameName] at heads
          obtain ⟨sameHead, sameTails⟩ := List.cons.inj heads
          subst sameHead
          congr 1
          apply ih leftRestSorted rightRestSorted
          intro name
          by_cases here : first.testName = name
          · rw [← here]
            exact sameTails
          · have others := agree name
            rwa [ofName_cons_of_ne here, ofName_cons_of_ne here] at others

theorem sortedByName_eq_of_ofName_eq {left right : List TestMethod}
    (agree : ∀ name, ofName name left = ofName name right) :
    sortedByName left = sortedByName right := by
  apply (sortedByName_sorted left).eq_of_ofName_eq (sortedByName_sorted right)
  intro name
  rw [ofName_sortedByName, ofName_sortedByName, agree]

theorem names_sortedByName_eq_of_perm {left right : List TestMethod}
    (perm : left.Perm right) :
    names (sortedByName left) = names (sortedByName right) := by
  have sortedNames (methods : List TestMethod) :
      ((sortedByName methods).map TestMethod.testName).Pairwise (· ≤ ·) :=
    List.pairwise_map.mpr (sortedByName_sorted methods)
  have samePerm : ((sortedByName left).map TestMethod.testName).Perm
      ((sortedByName right).map TestMethod.testName) :=
    (((sortedByName_perm left).trans perm).trans
      (sortedByName_perm right).symm).map TestMethod.testName
  have same := samePerm.eq_of_pairwise
    (fun _ _ _ _ before after => String.le_antisymm before after)
    (sortedNames left) (sortedNames right)
  rw [names, names, same]

theorem ofName_eq_of_perm {left right : List TestMethod}
    (perm : left.Perm right) {name : String}
    (unique : ∃ method, ∀ other ∈ ofName name left, other = method) :
    ofName name left = ofName name right := by
  obtain ⟨method, single⟩ := unique
  have repeated := List.eq_replicate_of_mem single
  have filtered := ofName_perm name perm
  rw [repeated] at filtered ⊢
  exact (List.perm_replicate.mp filtered.symm).symm

@[simp] theorem mem_withoutRepeats_iff (name : String) (names : List String) :
    name ∈ withoutRepeats names ↔ name ∈ names := by
  induction names using withoutRepeats.induct with
  | case1 second rest ih =>
      rw [withoutRepeats, if_pos rfl, ih]
      simp
  | case2 first second rest differ ih =>
      rw [withoutRepeats, if_neg differ, List.mem_cons, ih,
        List.mem_cons (a := name) (b := first)]
  | case3 names short =>
      rw [withoutRepeats]
      exact short

private theorem withoutRepeats_ascending (names : List String)
    (sorted : names.Pairwise (· ≤ ·)) :
    (withoutRepeats names).Pairwise (· < ·) := by
  induction names using withoutRepeats.induct with
  | case1 second rest ih =>
      rw [withoutRepeats, if_pos rfl]
      exact ih (List.pairwise_cons.mp sorted).2
  | case2 first second rest differ ih =>
      obtain ⟨firstLeast, restSorted⟩ := List.pairwise_cons.mp sorted
      obtain ⟨secondLeast, _⟩ := List.pairwise_cons.mp restSorted
      rw [withoutRepeats, if_neg differ]
      refine List.pairwise_cons.mpr ⟨?_, ih restSorted⟩
      intro name member
      have secondLe : second ≤ name := by
        rcases List.mem_cons.mp ((mem_withoutRepeats_iff name _).mp member)
          with rfl | later
        · exact String.le_refl _
        · exact secondLeast name later
      -- A name that is not above the first one would make the heads equal.
      apply String.not_le.mp
      intro below
      exact differ (String.le_antisymm
        (firstLeast second List.mem_cons_self)
        (String.le_trans secondLe below))
  | case3 names short =>
      rw [withoutRepeats]
      · match names, short with
        | [], _ => exact List.Pairwise.nil
        | [name], _ => exact List.pairwise_singleton _ name
        | first :: second :: rest, short => exact (short first second rest rfl).elim
      · exact short

@[simp] theorem mem_names_iff (name : String) (methods : List TestMethod) :
    name ∈ names methods ↔
      ∃ method ∈ methods, method.testName = name := by
  rw [names, mem_withoutRepeats_iff, List.mem_map]

theorem Sorted.names_ascending {methods : List TestMethod}
    (sorted : Sorted methods) : (names methods).Pairwise (· < ·) :=
  withoutRepeats_ascending _ (List.pairwise_map.mpr sorted)

theorem Sorted.names_sublist {fewer more : List TestMethod}
    (fewerSorted : Sorted fewer) (moreSorted : Sorted more)
    (within : ∀ method ∈ fewer, method ∈ more) :
    (names fewer).Sublist (names more) := by
  have ascending := fewerSorted.names_ascending
  have nodup : (names fewer).Nodup := ascending.imp String.ne_of_lt
  have subset : names fewer ⊆ names more := by
    intro name member
    obtain ⟨method, isIn, named⟩ := (mem_names_iff name fewer).mp member
    exact (mem_names_iff name more).mpr ⟨method, within method isIn, named⟩
  exact List.sublist_of_subperm_of_pairwise (List.subperm_of_subset nodup subset)
    ascending moreSorted.names_ascending

end TestMethod
end DexCensus
