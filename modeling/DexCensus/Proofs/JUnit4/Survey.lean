/-
The survey of the classes and its table.

The table of a survey holds the summaries of the kept definitions and no
others.  Following superclass names from one kept definition to another is
then the same as following parents in the table.
-/

import DexCensus.Proofs.JUnit4.Ancestry
import DexCensus.Proofs.JUnit4.KeptClass

namespace DexCensus
namespace JUnit4

open Dex

variable {markers : List String}

theorem ClassTable.mem_entries_iff (table : ClassTable)
    (summary : ClassSummary) :
    summary ∈ table.entries ↔ ∃ position, table.get position = summary := by
  rw [Array.mem_iff_getElem]
  constructor
  · intro ⟨position, inside, found⟩
    exact ⟨⟨position, inside⟩, found⟩
  · intro ⟨position, found⟩
    exact ⟨position.val, position.isLt, found⟩

theorem ClassTable.eq_of_name_eq (table : ClassTable)
    {left right : Fin table.size}
    (same : (table.get left).name = (table.get right).name) :
    left = right := by
  have foundLeft := (table.find?_eq_some_iff _ left).mpr same
  have foundRight := (table.find?_eq_some_iff _ right).mpr rfl
  exact Option.some.inj (foundLeft.symm.trans foundRight)

private theorem ClassTable.mem_append_iff (table : ClassTable)
    (summary : ClassSummary)
    (absent : table.positions[summary.name]? = none) (other : ClassSummary) :
    other ∈ (table.append summary absent).entries ↔
      other = summary ∨
        (other ∈ table.entries ∧ other.name ≠ summary.name) := by
  have fresh : other ∈ table.entries → other.name ≠ summary.name := by
    intro member same
    obtain ⟨position, inside, found⟩ := Array.mem_iff_getElem.mp member
    have present := (table.positions_iff summary.name position).mpr
      ⟨inside, by rw [found, same]⟩
    rw [absent] at present
    cases present
  rw [show (table.append summary absent).entries =
    table.entries.push summary from rfl, Array.mem_push]
  constructor
  · intro member
    rcases member with old | isNew
    · exact Or.inr ⟨old, fresh old⟩
    · exact Or.inl isNew
  · intro member
    rcases member with isNew | ⟨old, _⟩
    · exact Or.inr isNew
    · exact Or.inl old

private theorem ClassTable.mem_replace_iff (table : ClassTable) (position : Nat)
    (summary : ClassSummary)
    (found : table.positions[summary.name]? = some position)
    (other : ClassSummary) :
    other ∈ (table.replace position summary found).entries ↔
      other = summary ∨
        (other ∈ table.entries ∧ other.name ≠ summary.name) := by
  obtain ⟨inside, sameName⟩ :=
    (table.positions_iff summary.name position).mp found
  have entries : (table.replace position summary found).entries =
      table.entries.set position summary inside := rfl
  rw [entries]
  constructor
  · intro member
    obtain ⟨place, placeInside, placed⟩ := Array.mem_iff_getElem.mp member
    by_cases here : position = place
    · subst here
      rw [Array.getElem_set_self] at placed
      exact Or.inl placed.symm
    · have oldInside : place < table.entries.size := by
        simpa using placeInside
      rw [Array.getElem_set_ne inside oldInside here] at placed
      refine Or.inr ⟨Array.mem_iff_getElem.mpr ⟨place, oldInside, placed⟩, ?_⟩
      intro same
      have present := (table.positions_iff summary.name place).mpr
        ⟨oldInside, by rw [placed, same]⟩
      rw [found] at present
      exact here (Option.some.inj present)
  · intro member
    rcases member with rfl | ⟨old, differs⟩
    · exact Array.mem_iff_getElem.mpr
        ⟨position, by simpa using inside, Array.getElem_set_self inside⟩
    · obtain ⟨place, placeInside, placed⟩ := Array.mem_iff_getElem.mp old
      have apart : position ≠ place := by
        rintro rfl
        exact differs (by rw [← placed, sameName])
      refine Array.mem_iff_getElem.mpr
        ⟨place, by simpa using placeInside, ?_⟩
      rw [Array.getElem_set_ne inside _ apart]
      exact placed

/-- Recording a summary puts it in the place of the one of the same name. -/
theorem Survey.mem_record_iff (survey : Survey) (summary : ClassSummary)
    (other : ClassSummary) :
    other ∈ (survey.record summary).table.entries ↔
      other = summary ∨
        (other ∈ survey.table.entries ∧ other.name ≠ summary.name) := by
  unfold Survey.record
  split
  · rename_i absent
    exact survey.table.mem_append_iff summary absent other
  · rename_i position found
    exact survey.table.mem_replace_iff position summary found other

/-- All definitions can be summarized, and the table holds the summaries of
the kept ones and no others. -/
structure Represents (markers : List String) (table : ClassTable)
    (definitions : List Definition) : Prop where
  readable : ∀ definition ∈ definitions, ∃ summary,
    Summarizes markers definition summary
  mem_entries : ∀ summary, summary ∈ table.entries ↔
    ∃ definition, Kept definitions definition ∧
      Summarizes markers definition summary

theorem represents_empty : Represents markers ClassTable.empty [] := by
  constructor
  case readable => simp
  case mem_entries =>
    intro summary
    constructor
    · intro member
      exact (Array.not_mem_empty summary member).elim
    · intro ⟨definition, kept, _⟩
      exact (not_kept_nil definition kept).elim

private theorem Represents.record {survey : Survey}
    {definitions : List Definition}
    {definition : Definition} {summary : ClassSummary}
    (represents : Represents markers survey.table definitions)
    (found : Summarizes markers definition summary) :
    Represents markers (survey.record summary).table
      (definitions ++ [definition]) := by
  constructor
  case readable =>
    intro other member
    rcases List.mem_append.mp member with old | isNew
    · exact represents.readable other old
    · rw [List.mem_singleton.mp isNew]
      exact ⟨summary, found⟩
  case mem_entries =>
    intro other
    rw [Survey.mem_record_iff, represents.mem_entries other]
    constructor
    · intro member
      rcases member with rfl | ⟨⟨old, kept, oldFound⟩, differs⟩
      · exact ⟨definition, (kept_concat_iff _ _ _).mpr (Or.inl rfl), found⟩
      · refine ⟨old, (kept_concat_iff _ _ _).mpr (Or.inr ⟨kept, ?_⟩),
          oldFound⟩
        intro name oldName lastName
        exact differs ((oldFound.name.unique oldName).trans
          (lastName.unique found.name))
    · intro ⟨old, kept, oldFound⟩
      rcases (kept_concat_iff _ _ _).mp kept with rfl | ⟨stillKept, apart⟩
      · exact Or.inl (oldFound.unique found)
      · refine Or.inr ⟨⟨old, stillKept, oldFound⟩, ?_⟩
        intro same
        exact apart summary.name (same ▸ oldFound.name) found.name

theorem Survey.extend_represents (rest : List Definition) :
    ∀ (survey : Survey) (seen : List Definition),
      Represents markers survey.table seen →
      (∃ last, survey.extend markers rest = (last, none) ∧
        Represents markers last.table (seen ++ rest)) ∨
      (∃ last error, survey.extend markers rest = (last, some error) ∧
        ∃ definition ∈ rest, summarize markers definition = .error error) := by
  induction rest with
  | nil =>
      intro survey seen represents
      rw [List.append_nil]
      exact Or.inl ⟨survey, rfl, represents⟩
  | cons definition rest ih =>
      intro survey seen represents
      rw [Survey.extend]
      cases found : summarize markers definition with
      | error error =>
          exact Or.inr
            ⟨survey, error, rfl, definition, List.mem_cons_self, found⟩
      | ok summary =>
          have summarizes := (summarize_eq_ok_iff definition summary).mp found
          rcases ih _ _ (represents.record summarizes) with
            ⟨last, ended, still⟩ | ⟨last, error, failed, other, member, cause⟩
          · rw [List.append_assoc] at still
            exact Or.inl ⟨last, ended, still⟩
          · exact Or.inr ⟨last, error, failed, other,
              List.mem_cons_of_mem definition member, cause⟩

theorem Survey.ofSegments_cases (markers : List String)
    (segments : List IndexedSegment) :
    (∃ survey, Survey.ofSegments markers segments = (survey, none) ∧
      Represents markers survey.table (classDefinitions segments)) ∨
    (∃ survey error, Survey.ofSegments markers segments =
        (survey, some error) ∧
      ∃ definition ∈ classDefinitions segments,
        summarize markers definition = .error error) :=
  Survey.extend_represents (classDefinitions segments) Survey.empty []
    represents_empty

theorem Survey.represents_of_extend {seen : List Definition} {survey : Survey}
    (reached : Survey.empty.extend markers seen = (survey, none)) :
    Represents markers survey.table seen := by
  rcases Survey.extend_represents seen Survey.empty [] represents_empty with
    ⟨last, ended, represents⟩ | ⟨last, error, failed, _⟩
  · rw [reached] at ended
    cases ended
    exact represents
  · rw [reached] at failed
    cases failed

theorem Survey.represents_of_ofSegments {segments : List IndexedSegment}
    {survey : Survey}
    (surveyed : Survey.ofSegments markers segments = (survey, none)) :
    Represents markers survey.table (classDefinitions segments) :=
  Survey.represents_of_extend surveyed

/-! ### Definitions and positions -/

variable {table : ClassTable} {definitions : List Definition}

/-- The kept definition whose summary stands at a position of the table. -/
structure StandsAt (markers : List String) (definitions : List Definition)
    (table : ClassTable) (position : Fin table.size)
    (definition : Definition) : Prop where
  kept : Kept definitions definition
  summarizes : Summarizes markers definition (table.get position)

theorem Represents.exists_definition
    (represents : Represents markers table definitions)
    (position : Fin table.size) :
    ∃ definition, StandsAt markers definitions table position definition := by
  have member : table.get position ∈ table.entries :=
    (table.mem_entries_iff _).mpr ⟨position, rfl⟩
  obtain ⟨definition, kept, summarizes⟩ :=
    (represents.mem_entries _).mp member
  exact ⟨definition, kept, summarizes⟩

theorem Represents.exists_get_eq
    (represents : Represents markers table definitions)
    {definition : Definition} {summary : ClassSummary}
    (kept : Kept definitions definition)
    (summarizes : Summarizes markers definition summary) :
    ∃ position, table.get position = summary := by
  have member := (represents.mem_entries summary).mpr
    ⟨definition, kept, summarizes⟩
  exact (table.mem_entries_iff summary).mp member

theorem Represents.exists_position
    (represents : Represents markers table definitions)
    {definition : Definition} (kept : Kept definitions definition) :
    ∃ position, StandsAt markers definitions table position definition := by
  obtain ⟨summary, summarizes⟩ := represents.readable definition kept.mem
  obtain ⟨position, found⟩ := represents.exists_get_eq kept summarizes
  exact ⟨position, kept, found ▸ summarizes⟩

private theorem StandsAt.definition_unique {position : Fin table.size}
    {left right : Definition}
    (first : StandsAt markers definitions table position left)
    (second : StandsAt markers definitions table position right) :
    left = right :=
  first.kept.unique second.kept first.summarizes.name second.summarizes.name

private theorem StandsAt.position_unique {left right : Fin table.size}
    {definition : Definition}
    (first : StandsAt markers definitions table left definition)
    (second : StandsAt markers definitions table right definition) :
    left = right :=
  table.eq_of_name_eq (first.summarizes.name.unique second.summarizes.name)

theorem StandsAt.isParent_iff {parent child : Fin table.size}
    {parentDefinition childDefinition : Definition}
    (above : StandsAt markers definitions table parent parentDefinition)
    (below : StandsAt markers definitions table child childDefinition) :
    table.IsParent parent child ↔
      KeptParent definitions parentDefinition childDefinition := by
  have known := below.summarizes.superclassName
  constructor
  · intro edge
    exact {
      parentKept := above.kept
      childKept := below.kept
      named := ⟨_, above.summarizes.name, known.trans (congrArg _ edge)⟩ }
  · intro ⟨_, _, name, parentNamed, childNamed⟩
    have sameName := parentNamed.unique above.summarizes.name
    have sameSuperclass := Except.ok.inj (known.symm.trans childNamed)
    rw [ClassTable.IsParent, sameSuperclass, sameName]

/-- Ancestry in the table is ancestry among the kept definitions. -/
theorem Represents.ancestor_or_self_iff
    (represents : Represents markers table definitions)
    {ancestor position : Fin table.size}
    {ancestorDefinition definition : Definition}
    (above : StandsAt markers definitions table ancestor ancestorDefinition)
    (below : StandsAt markers definitions table position definition) :
    Relation.ReflTransGen table.IsParent ancestor position ↔
      Relation.ReflTransGen (KeptParent definitions) ancestorDefinition
        definition := by
  constructor
  · intro line
    induction line generalizing definition with
    | refl =>
        rw [above.definition_unique below]
    | @tail middle last _ edge ih =>
        obtain ⟨between, standsBetween⟩ := represents.exists_definition middle
        exact (ih standsBetween).tail
          ((standsBetween.isParent_iff below).mp edge)
  · intro line
    induction line generalizing position with
    | refl =>
        rw [above.position_unique below]
    | @tail middle last _ edge ih =>
        obtain ⟨between, standsBetween⟩ :=
          represents.exists_position edge.parentKept
        exact (ih standsBetween).tail
          ((standsBetween.isParent_iff below).mpr edge)

theorem Represents.ancestor_iff
    (represents : Represents markers table definitions)
    {ancestor position : Fin table.size}
    {ancestorDefinition definition : Definition}
    (above : StandsAt markers definitions table ancestor ancestorDefinition)
    (below : StandsAt markers definitions table position definition) :
    Relation.TransGen table.IsParent ancestor position ↔
      Relation.TransGen (KeptParent definitions) ancestorDefinition
        definition := by
  rw [Relation.TransGen.tail'_iff, Relation.TransGen.tail'_iff]
  constructor
  · intro ⟨middle, line, edge⟩
    obtain ⟨between, standsBetween⟩ := represents.exists_definition middle
    exact ⟨between, (represents.ancestor_or_self_iff above standsBetween).mp line,
      (standsBetween.isParent_iff below).mp edge⟩
  · intro ⟨between, line, edge⟩
    obtain ⟨middle, standsBetween⟩ :=
      represents.exists_position edge.parentKept
    exact ⟨middle,
      (represents.ancestor_or_self_iff above standsBetween).mpr line,
      (standsBetween.isParent_iff below).mpr edge⟩

theorem Represents.cycle_above_iff
    (represents : Represents markers table definitions)
    {position : Fin table.size} {definition : Definition}
    (below : StandsAt markers definitions table position definition) :
    (∃ ancestor, Relation.ReflTransGen table.IsParent ancestor position ∧
        Relation.TransGen table.IsParent ancestor ancestor) ↔
      ∃ ancestor,
        Relation.ReflTransGen (KeptParent definitions) ancestor definition ∧
        Relation.TransGen (KeptParent definitions) ancestor ancestor := by
  constructor
  · intro ⟨ancestor, line, cycle⟩
    obtain ⟨above, standsAbove⟩ := represents.exists_definition ancestor
    exact ⟨above,
      (represents.ancestor_or_self_iff standsAbove below).mp line,
      (represents.ancestor_iff standsAbove standsAbove).mp cycle⟩
  · intro ⟨above, line, cycle⟩
    obtain ⟨_, _, edge⟩ := Relation.TransGen.tail'_iff.mp cycle
    obtain ⟨ancestor, standsAbove⟩ :=
      represents.exists_position edge.childKept
    exact ⟨ancestor,
      (represents.ancestor_or_self_iff standsAbove below).mpr line,
      (represents.ancestor_iff standsAbove standsAbove).mpr cycle⟩

end JUnit4
end DexCensus
