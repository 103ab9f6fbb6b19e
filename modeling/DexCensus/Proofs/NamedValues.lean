/-
What named values hold.

Named values collect pairs of names and values if their names are those of the
pairs, each once and in ascending order, and each has the value of the last
pair of its name.  Inserting pairs one after another collects them, and there
are no other named values that do.
-/

import DexCensus.Value
import Mathlib.Data.List.Induction
import Mathlib.Data.String.Basic

namespace DexCensus
namespace NamedValues

def Ascending (values : NamedValues) : Prop :=
  values.Pairwise fun earlier later => earlier.1 < later.1

theorem mem_insert_iff {values : NamedValues} (ascending : Ascending values)
    (name : String) (value : Value) (pair : String × Value) :
    pair ∈ insert name value values ↔
      pair = (name, value) ∨ (pair ∈ values ∧ pair.1 ≠ name) := by
  induction values with
  | nil => simp [insert]
  | cons head rest ih =>
      obtain ⟨headFirst, restAscending⟩ := List.pairwise_cons.mp ascending
      rw [insert]
      by_cases before : name < head.1
      · -- All names of the list come after the new one.
        have others : pair ∈ head :: rest → pair.1 ≠ name := by
          intro member
          rcases List.mem_cons.mp member with isHead | inRest
          · rw [isHead]
            exact before.ne'
          · exact (before.trans (headFirst pair inRest)).ne'
        rw [if_pos before, List.mem_cons, and_iff_left_of_imp others]
      · rw [if_neg before]
        by_cases same : name = head.1
        · subst same
          have others : pair ∈ rest → pair.1 ≠ head.1 :=
            fun member => (headFirst pair member).ne'
          have notHead : pair.1 ≠ head.1 → pair ≠ head :=
            fun differ isHead => differ (congrArg Prod.fst isHead)
          rw [if_pos rfl, List.mem_cons, List.mem_cons]
          tauto
        · have headStays : pair = head → pair.1 ≠ name :=
            fun isHead named => same (isHead ▸ named.symm)
          rw [if_neg same, List.mem_cons, List.mem_cons, ih restAscending]
          tauto

private theorem ascending_insert {values : NamedValues}
    (ascending : Ascending values)
    (name : String) (value : Value) : Ascending (insert name value values) := by
  induction values with
  | nil => exact List.pairwise_singleton _ _
  | cons head rest ih =>
      obtain ⟨headFirst, restAscending⟩ := List.pairwise_cons.mp ascending
      rw [insert]
      by_cases before : name < head.1
      · rw [if_pos before]
        apply List.Pairwise.cons _ ascending
        intro other member
        rcases List.mem_cons.mp member with isHead | inRest
        · rw [isHead]
          exact before
        · exact before.trans (headFirst other inRest)
      · rw [if_neg before]
        by_cases same : name = head.1
        · subst same
          rw [if_pos rfl]
          exact List.Pairwise.cons headFirst restAscending
        · rw [if_neg same]
          apply List.Pairwise.cons _ (ih restAscending)
          intro other member
          rcases (mem_insert_iff restAscending _ _ _).mp member with
            isNew | ⟨inRest, _⟩
          · rw [isNew]
            exact lt_of_le_of_ne (not_lt.mp before) (Ne.symm same)
          · exact headFirst other inRest

/-- A pair that no later one of the same name replaces. -/
def LastOfName (pairs : List (String × Value)) (pair : String × Value) :
    Prop :=
  ∃ before after, pairs = before ++ pair :: after ∧
    ∀ later ∈ after, later.1 ≠ pair.1

@[simp] theorem not_lastOfName_nil (pair : String × Value) :
    ¬ LastOfName [] pair := by
  intro ⟨before, after, split, _⟩
  exact absurd split.symm (List.append_ne_nil_of_right_ne_nil before
    (List.cons_ne_nil pair after))

theorem lastOfName_concat_iff (pairs : List (String × Value))
    (last pair : String × Value) :
    LastOfName (pairs ++ [last]) pair ↔
      pair = last ∨ (LastOfName pairs pair ∧ pair.1 ≠ last.1) := by
  constructor
  · intro ⟨before, after, split, others⟩
    rcases List.eq_nil_or_concat after with nothing | ⟨front, final, whole⟩
    · subst nothing
      obtain ⟨_, isLast⟩ := List.append_inj' split rfl
      exact Or.inl (List.singleton_inj.mp isLast).symm
    · rw [List.concat_eq_append] at whole
      subst whole
      rw [← List.cons_append, ← List.append_assoc] at split
      obtain ⟨sameFront, isLast⟩ := List.append_inj' split rfl
      have final_eq := List.singleton_inj.mp isLast
      refine Or.inr ⟨⟨before, front, sameFront, ?_⟩, ?_⟩
      · intro later member
        exact others later (List.mem_append_left _ member)
      · rw [final_eq]
        exact (others final (List.mem_append_right _
          (List.mem_singleton_self final))).symm
  · rintro (isLast | ⟨⟨before, after, split, others⟩, differ⟩)
    · subst isLast
      exact ⟨pairs, [], rfl, by simp⟩
    · refine ⟨before, after ++ [last], ?_, ?_⟩
      · rw [split, List.append_assoc, List.cons_append]
      · intro later member
        rcases List.mem_append.mp member with inAfter | isLast
        · exact others later inAfter
        · rw [List.mem_singleton.mp isLast]
          exact differ.symm

private theorem exists_lastOfName {pairs : List (String × Value)}
    {name : String}
    (listed : name ∈ pairs.map Prod.fst) :
    ∃ value, LastOfName pairs (name, value) := by
  induction pairs using List.reverseRecOn with
  | nil => cases listed
  | append_singleton pairs last ih =>
      simp only [lastOfName_concat_iff]
      by_cases isLast : name = last.1
      · exact ⟨last.2, Or.inl (Prod.ext isLast rfl)⟩
      · have inPairs : name ∈ pairs.map Prod.fst := by
          simpa [isLast] using listed
        obtain ⟨value, found⟩ := ih inPairs
        exact ⟨value, Or.inr ⟨found, isLast⟩⟩

theorem LastOfName.mem {pairs : List (String × Value)}
    {pair : String × Value} (last : LastOfName pairs pair) : pair ∈ pairs := by
  obtain ⟨before, after, split, _⟩ := last
  rw [split]
  exact List.mem_append_right before List.mem_cons_self

private theorem LastOfName.unique {pairs : List (String × Value)}
    {left right : String × Value} (leftLast : LastOfName pairs left)
    (rightLast : LastOfName pairs right) (same : left.1 = right.1) :
    left = right := by
  induction pairs using List.reverseRecOn with
  | nil => exact (not_lastOfName_nil left leftLast).elim
  | append_singleton pairs last ih =>
      rw [lastOfName_concat_iff] at leftLast rightLast
      rcases leftLast with leftIs | ⟨leftBefore, leftDiffers⟩ <;>
        rcases rightLast with rightIs | ⟨rightBefore, rightDiffers⟩
      · rw [leftIs, rightIs]
      · rw [leftIs] at same
        exact (rightDiffers same.symm).elim
      · rw [rightIs] at same
        exact (leftDiffers same).elim
      · exact ih leftBefore rightBefore

/-! ### Collected pairs -/

structure Collects (values : NamedValues) (pairs : List (String × Value)) :
    Prop where
  ascending : Ascending values
  names : ∀ name, name ∈ values.map Prod.fst ↔ name ∈ pairs.map Prod.fst
  last : ∀ pair ∈ values, LastOfName pairs pair

private theorem Collects.mem_iff {values : NamedValues}
    {pairs : List (String × Value)} (collects : Collects values pairs)
    (pair : String × Value) : pair ∈ values ↔ LastOfName pairs pair := by
  constructor
  · exact collects.last pair
  · intro isLast
    obtain ⟨other, member, same⟩ := List.mem_map.mp
      ((collects.names pair.1).mpr (List.mem_map_of_mem isLast.mem))
    rw [isLast.unique (collects.last other member) same.symm]
    exact member

theorem ofPairs_concat (pairs : List (String × Value))
    (last : String × Value) :
    ofPairs (pairs ++ [last]) = insert last.1 last.2 (ofPairs pairs) :=
  List.foldl_append

theorem ascending_ofPairs (pairs : List (String × Value)) :
    Ascending (ofPairs pairs) := by
  induction pairs using List.reverseRecOn with
  | nil => exact List.Pairwise.nil
  | append_singleton pairs last ih =>
      rw [ofPairs_concat]
      exact ascending_insert ih last.1 last.2

theorem mem_ofPairs_iff (pairs : List (String × Value))
    (pair : String × Value) :
    pair ∈ ofPairs pairs ↔ LastOfName pairs pair := by
  induction pairs using List.reverseRecOn with
  | nil => exact iff_of_false List.not_mem_nil (not_lastOfName_nil pair)
  | append_singleton pairs last ih =>
      rw [ofPairs_concat, mem_insert_iff (ascending_ofPairs pairs), ih,
        lastOfName_concat_iff]

theorem collects_ofPairs (pairs : List (String × Value)) :
    Collects (ofPairs pairs) pairs where
  ascending := ascending_ofPairs pairs
  last := fun pair => (mem_ofPairs_iff pairs pair).mp
  names := by
    intro name
    simp only [List.mem_map]
    constructor
    · intro ⟨pair, member, named⟩
      exact ⟨pair, ((mem_ofPairs_iff pairs pair).mp member).mem, named⟩
    · intro listed
      obtain ⟨value, isLast⟩ := exists_lastOfName (List.mem_map.mpr listed)
      exact ⟨_, (mem_ofPairs_iff pairs _).mpr isLast, rfl⟩

theorem Ascending.ext {left right : NamedValues}
    (leftAscending : Ascending left) (rightAscending : Ascending right)
    (same : ∀ pair, pair ∈ left ↔ pair ∈ right) : left = right := by
  have nodup {values : NamedValues} (ascending : Ascending values) :
      values.Nodup := by
    apply ascending.imp
    intro earlier later before equal
    exact before.ne (congrArg Prod.fst equal)
  have perm := (List.perm_ext_iff_of_nodup (nodup leftAscending)
    (nodup rightAscending)).mpr same
  apply List.Perm.eq_of_pairwise _ leftAscending rightAscending perm
  intro first second _ _ before after
  exact (lt_asymm before after).elim

theorem collects_iff (values : NamedValues) (pairs : List (String × Value)) :
    Collects values pairs ↔ values = ofPairs pairs := by
  constructor
  · intro collects
    apply collects.ascending.ext (ascending_ofPairs pairs)
    intro pair
    rw [collects.mem_iff, mem_ofPairs_iff]
  · intro same
    rw [same]
    exact collects_ofPairs pairs

/-- The later of two pairs with the same name stays. -/
example :
    ofPairs [("b", .null), ("a", .bool false), ("b", .bool true)] =
      [("a", .bool false), ("b", .bool true)] := by
  decide

end NamedValues
end DexCensus
