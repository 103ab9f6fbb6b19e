/-
Collections without repeats that keep the order of insertion.

The elements stand in an array; a hash set beside it answers whether an
element is there.  The type holds the facts that the two agree and that no
element occurs twice.
-/

import Std.Data.HashSet

namespace DexCensus

structure OrderedSet (α : Type) [DecidableEq α] [Hashable α] where
  elements : Array α
  members : Std.HashSet α
  mem_members : ∀ element, element ∈ members ↔ element ∈ elements
  nodup : elements.toList.Nodup

namespace OrderedSet

variable {α : Type} [DecidableEq α] [Hashable α]

def empty : OrderedSet α :=
  { elements := #[]
    members := ∅
    mem_members := by simp
    nodup := List.nodup_nil }

def insert (set : OrderedSet α) (element : α) : OrderedSet α :=
  if present : element ∈ set.members then set
  else
    { elements := set.elements.push element
      members := set.members.insert element
      mem_members := by
        intro other
        rw [Std.HashSet.mem_insert, set.mem_members, Array.mem_push,
          beq_iff_eq]
        constructor
        · rintro (rfl | old)
          · exact Or.inr rfl
          · exact Or.inl old
        · rintro (old | rfl)
          · exact Or.inr old
          · exact Or.inl rfl
      nodup := by
        have absent : element ∉ set.elements.toList := by
          intro old
          exact present
            ((set.mem_members element).mpr (Array.mem_toList_iff.mp old))
        rw [Array.toList_push, List.nodup_append]
        refine ⟨set.nodup, by simp, ?_⟩
        intro other old last isLast equal
        rw [List.mem_singleton] at isLast
        rw [equal, isLast] at old
        exact absent old }

def insertAll (set : OrderedSet α) (elements : List α) : OrderedSet α :=
  elements.foldl insert set

def toList (set : OrderedSet α) : List α :=
  set.elements.toList

@[simp] theorem toList_empty : (empty : OrderedSet α).toList = [] :=
  rfl

theorem toList_insert (set : OrderedSet α) (element : α) :
    (set.insert element).toList =
      if element ∈ set.toList then set.toList
      else set.toList ++ [element] := by
  have agree : element ∈ set.members ↔ element ∈ set.toList := by
    rw [set.mem_members, toList, Array.mem_toList_iff]
  by_cases present : element ∈ set.members
  · rw [if_pos (agree.mp present)]
    simp only [insert, dif_pos present]
  · rw [if_neg fun old => present (agree.mpr old)]
    simp only [insert, dif_neg present, toList, Array.toList_push]

end OrderedSet

/-- A list with the elements of another one appended that are not yet in it.
Meant for short lists of elements that have no hash at hand. -/
def appendNew {α : Type} [DecidableEq α] (known : List α) : List α → List α
  | [] => known
  | element :: rest =>
      if element ∈ known then appendNew known rest
      else appendNew (known ++ [element]) rest

end DexCensus
