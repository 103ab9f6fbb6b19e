/-
The classes of a package by name.

The table holds one summary per dotted name, in the order the names first
appear.  A name that is defined again keeps its place and takes the later
definition; each such redefinition is noted.  The type of the table holds the
fact that the index by name and the summaries agree, which also says that no
name occurs twice.
-/

import DexCensus.JUnit4.ClassSummary
import Std.Data.HashMap

namespace DexCensus
namespace JUnit4

open Dex

/-- Summaries in order of first appearance, with an index by name. -/
structure ClassTable where
  entries : Array ClassSummary
  positions : Std.HashMap String Nat
  positions_iff : ∀ name position,
    positions[name]? = some position ↔
      ∃ inside : position < entries.size, entries[position].name = name

namespace ClassTable

def empty : ClassTable :=
  { entries := #[]
    positions := ∅
    positions_iff := by
      intro name position
      simp }

def replace (table : ClassTable) (position : Nat) (summary : ClassSummary)
    (found : table.positions[summary.name]? = some position) : ClassTable :=
  have known := (table.positions_iff summary.name position).mp found
  { entries := table.entries.set position summary known.1
    positions := table.positions
    positions_iff := by
      intro name other
      rcases known with ⟨inside, sameName⟩
      rw [table.positions_iff]
      constructor
      · rintro ⟨otherInside, otherName⟩
        refine ⟨by simpa using otherInside, ?_⟩
        by_cases here : position = other
        · subst here
          simpa using sameName.symm.trans otherName
        · rw [Array.getElem_set_ne inside _ here]
          exact otherName
      · rintro ⟨otherInside, otherName⟩
        have oldInside : other < table.entries.size := by
          simpa using otherInside
        refine ⟨oldInside, ?_⟩
        by_cases here : position = other
        · subst here
          exact sameName.trans (by simpa using otherName)
        · rw [Array.getElem_set_ne inside _ here] at otherName
          exact otherName }

def append (table : ClassTable) (summary : ClassSummary)
    (absent : table.positions[summary.name]? = none) : ClassTable :=
  { entries := table.entries.push summary
    positions := table.positions.insert summary.name table.entries.size
    positions_iff := by
      intro name position
      rw [Std.HashMap.getElem?_insert]
      by_cases same : summary.name = name
      · subst same
        rw [if_pos (beq_self_eq_true _), Option.some.injEq]
        constructor
        · rintro rfl
          exact ⟨by simp, by simp⟩
        · rintro ⟨inside, sameName⟩
          apply Classical.byContradiction
          intro different
          have earlier : position < table.entries.size := by
            rw [Array.size_push] at inside
            omega
          rw [Array.getElem_push_lt earlier] at sameName
          have present := (table.positions_iff summary.name position).mpr
            ⟨earlier, sameName⟩
          rw [absent] at present
          cases present
      · rw [if_neg (by simpa using same), table.positions_iff]
        constructor
        · rintro ⟨inside, sameName⟩
          refine ⟨by rw [Array.size_push]; omega, ?_⟩
          rw [Array.getElem_push_lt inside]
          exact sameName
        · rintro ⟨inside, sameName⟩
          have earlier : position < table.entries.size := by
            rw [Array.size_push] at inside
            apply Classical.byContradiction
            intro late
            have last : position = table.entries.size := by omega
            subst last
            rw [Array.getElem_push_eq] at sameName
            exact same sameName
          rw [Array.getElem_push_lt earlier] at sameName
          exact ⟨earlier, sameName⟩ }

abbrev size (table : ClassTable) : Nat :=
  table.entries.size

def find? (table : ClassTable) (name : String) : Option (Fin table.size) :=
  match found : table.positions[name]? with
  | some position =>
      some ⟨position, ((table.positions_iff name position).mp found).1⟩
  | none => none

def get (table : ClassTable) (position : Fin table.size) : ClassSummary :=
  table.entries[position]

def parent? (table : ClassTable) (position : Fin table.size) :
    Option (Fin table.size) :=
  (table.get position).superclassName.bind table.find?

end ClassTable

/-! ### Surveys -/

/-- A name that is defined again: the segment of the definition that gives way
and the segment of the one that takes its place. -/
structure Redefinition where
  name : String
  earlier : Nat
  later : Nat
  deriving DecidableEq

def Redefinition.message (redefinition : Redefinition) : String :=
  let name := redefinition.name
  let earlier := redefinition.earlier
  let later := redefinition.later
  s!"class {name} defined in dex segments #{earlier} and #{later}, "
    ++ "keeping the latter"

structure Survey where
  table : ClassTable
  redefinitions : Array Redefinition

namespace Survey

def empty : Survey :=
  { table := ClassTable.empty, redefinitions := #[] }

def record (survey : Survey) (summary : ClassSummary) : Survey :=
  match found : survey.table.positions[summary.name]? with
  | none =>
      { table := survey.table.append summary found
        redefinitions := survey.redefinitions }
  | some position =>
      let inside :=
        ((survey.table.positions_iff summary.name position).mp found).1
      let earlier := survey.table.get ⟨position, inside⟩
      { table := survey.table.replace position summary found
        redefinitions := survey.redefinitions.push
          { name := summary.name
            earlier := earlier.segmentNumber
            later := summary.segmentNumber } }

/-- The classes of some definitions.  An error ends the survey, which keeps
what was seen before it. -/
def extend (markers : List String) (survey : Survey) :
    List Definition → Survey × Option DexError
  | [] => (survey, none)
  | definition :: rest =>
      match summarize markers definition with
      | .error error => (survey, some error)
      | .ok summary => (survey.record summary).extend markers rest

def ofSegments (markers : List String) (segments : List IndexedSegment) :
    Survey × Option DexError :=
  empty.extend markers
    ((Definition.ofSegments segments).filter fun definition =>
      !definition.classDef.isInterface)

end Survey
end JUnit4
end DexCensus
