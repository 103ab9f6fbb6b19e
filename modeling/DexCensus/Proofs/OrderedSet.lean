/-
What ends up in collections without repeats.

Insertion keeps what is there and adds what is missing, so the elements are
those of both sides and no element stands twice.  A set with hashes gives the
same list as a search through the list itself.
-/

import DexCensus.OrderedSet

namespace DexCensus

variable {α : Type} [DecidableEq α]

theorem appendNew_cons_of_mem {known : List α} {element : α}
    (present : element ∈ known) (rest : List α) :
    appendNew known (element :: rest) = appendNew known rest := by
  rw [appendNew, if_pos present]

theorem appendNew_cons_of_not_mem {known : List α} {element : α}
    (absent : element ∉ known) (rest : List α) :
    appendNew known (element :: rest) =
      appendNew (known ++ [element]) rest := by
  rw [appendNew, if_neg absent]

theorem appendNew_eq_foldl (known elements : List α) :
    appendNew known elements =
      elements.foldl (fun list element =>
        if element ∈ list then list else list ++ [element]) known := by
  induction elements generalizing known with
  | nil => rfl
  | cons element rest ih =>
      rw [List.foldl_cons]
      by_cases present : element ∈ known
      · rw [appendNew_cons_of_mem present, if_pos present, ih]
      · rw [appendNew_cons_of_not_mem present, if_neg present, ih]

theorem appendNew_append (known front back : List α) :
    appendNew known (front ++ back) =
      appendNew (appendNew known front) back := by
  simp only [appendNew_eq_foldl, List.foldl_append]

@[simp] theorem mem_appendNew_iff (known elements : List α) (other : α) :
    other ∈ appendNew known elements ↔ other ∈ known ∨ other ∈ elements := by
  induction elements generalizing known with
  | nil => simp [appendNew]
  | cons element rest ih =>
      by_cases present : element ∈ known
      · rw [appendNew_cons_of_mem present, ih, List.mem_cons, or_left_comm]
        constructor
        · intro member
          exact Or.inr member
        · rintro (rfl | member)
          · exact Or.inl present
          · exact member
      · rw [appendNew_cons_of_not_mem present, ih, List.mem_append,
          List.mem_singleton, List.mem_cons, or_assoc]

theorem nodup_appendNew (known elements : List α) (nodup : known.Nodup) :
    (appendNew known elements).Nodup := by
  induction elements generalizing known with
  | nil => exact nodup
  | cons element rest ih =>
      by_cases present : element ∈ known
      · rw [appendNew_cons_of_mem present]
        exact ih known nodup
      · rw [appendNew_cons_of_not_mem present]
        apply ih
        refine List.nodup_append.mpr ⟨nodup, by simp, ?_⟩
        intro old member last isLast same
        rw [List.mem_singleton.mp isLast] at same
        exact present (same ▸ member)

theorem appendNew_singleton_eq_iff (known : List α) (element : α) :
    appendNew known [element] = known ↔ element ∈ known := by
  by_cases present : element ∈ known
  · simp [appendNew, present]
  · simp [appendNew, present]

theorem appendNew_eq_append_eraseDups (known elements : List α) :
    appendNew known elements =
      known ++ (elements.removeAll known).eraseDups := by
  induction elements generalizing known with
  | nil => simp [appendNew, List.removeAll]
  | cons element rest ih =>
      by_cases present : element ∈ known
      · rw [appendNew_cons_of_mem present, ih]
        simp [List.removeAll, present]
      · have others : rest.removeAll (known ++ [element]) =
            (rest.removeAll known).filter fun other => !other == element := by
          rw [List.removeAll, List.removeAll, List.filter_filter]
          apply List.filter_congr
          intro other _
          by_cases same : other = element <;> simp [same]
        have first : (element :: rest).removeAll known =
            element :: rest.removeAll known := by
          simp [List.removeAll, present]
        rw [appendNew_cons_of_not_mem present, ih, others, first,
          List.eraseDups_cons, List.append_assoc, List.singleton_append]

theorem appendNew_nil (elements : List α) :
    appendNew [] elements = elements.eraseDups := by
  have all : elements.removeAll [] = elements :=
    List.filter_eq_self.mpr (by simp)
  rw [appendNew_eq_append_eraseDups, all, List.nil_append]

theorem appendNew_eq_append {known elements : List α}
    (once : (known ++ elements).Nodup) :
    appendNew known elements = known ++ elements := by
  induction elements generalizing known with
  | nil => exact (List.append_nil known).symm
  | cons element rest ih =>
      have absent : element ∉ known := fun present =>
        (List.nodup_append.mp once).2.2 element present element
          List.mem_cons_self rfl
      rw [appendNew_cons_of_not_mem absent, ih (by simpa using once),
        List.append_assoc, List.singleton_append]

theorem appendNew_nil_of_nodup {elements : List α} (once : elements.Nodup) :
    appendNew [] elements = elements :=
  appendNew_eq_append once

theorem filter_appendNew (keep : α → Bool) (known elements : List α) :
    (appendNew known elements).filter keep =
      appendNew (known.filter keep) (elements.filter keep) := by
  induction elements generalizing known with
  | nil => rfl
  | cons element rest ih =>
      by_cases kept : keep element = true
      · rw [List.filter_cons_of_pos kept]
        by_cases present : element ∈ known
        · rw [appendNew_cons_of_mem present, ih, appendNew_cons_of_mem
            (List.mem_filter.mpr ⟨present, kept⟩)]
        · have absent : element ∉ known.filter keep :=
            fun member => present (List.mem_filter.mp member).1
          rw [appendNew_cons_of_not_mem present, ih,
            appendNew_cons_of_not_mem absent, List.filter_append,
            List.filter_cons_of_pos kept, List.filter_nil]
      · rw [List.filter_cons_of_neg kept]
        by_cases present : element ∈ known
        · rw [appendNew_cons_of_mem present, ih]
        · rw [appendNew_cons_of_not_mem present, ih, List.filter_append,
            List.filter_cons_of_neg kept, List.filter_nil, List.append_nil]

theorem appendNew_map_appendNew {β : Type} [DecidableEq β] (move : α → β)
    (before : List β) (known elements : List α) :
    appendNew before ((appendNew known elements).map move) =
      appendNew before ((known ++ elements).map move) := by
  induction elements generalizing known with
  | nil => rw [List.append_nil, appendNew]
  | cons element rest ih =>
      by_cases present : element ∈ known
      · have moved : move element ∈ appendNew before (known.map move) :=
          (mem_appendNew_iff _ _ _).mpr (Or.inr (List.mem_map_of_mem present))
        rw [appendNew_cons_of_mem present, ih, List.map_append,
          List.map_append, appendNew_append, appendNew_append, List.map_cons,
          appendNew_cons_of_mem moved]
      · rw [appendNew_cons_of_not_mem present, ih, List.append_assoc,
          List.singleton_append]

namespace OrderedSet

variable [Hashable α]

theorem nodup_toList (set : OrderedSet α) : set.toList.Nodup :=
  set.nodup

/-- Both ways to leave out repeats give the same list. -/
@[simp] theorem toList_insertAll (set : OrderedSet α) (elements : List α) :
    (set.insertAll elements).toList = appendNew set.toList elements := by
  induction elements generalizing set with
  | nil => rfl
  | cons element rest ih =>
      have later := ih (set.insert element)
      rw [toList_insert] at later
      rw [insertAll, List.foldl_cons, ← insertAll, later, appendNew]
      split <;> rfl

@[simp] theorem mem_toList_insertAll (set : OrderedSet α) (elements : List α)
    (other : α) :
    other ∈ (set.insertAll elements).toList ↔
      other ∈ set.toList ∨ other ∈ elements := by
  simp

end OrderedSet
end DexCensus
