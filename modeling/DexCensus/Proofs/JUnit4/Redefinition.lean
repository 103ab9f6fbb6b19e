/-
What a survey holds at every point of the scan.

A survey takes one definition after another.  After any of them its table has
one entry for each name seen, in order of first appearance.  The entry of a
name is the summary of the last definition of that name, and the index sends
the name to it.  The redefinitions noted so far name, for each definition of a
name that was seen before, its own segment and that of the definition of the
name before it.
-/

import DexCensus.Proofs.JUnit4.Cycle

namespace DexCensus
namespace JUnit4

open Dex

variable {markers : List String}

/-- The definitions of classes that are not interfaces: the segments in order,
numbered from one, and the definitions of each one in table order. -/
def scanOrder (segments : List IndexedSegment) : List Definition :=
  (segments.zipIdx 1).flatMap fun (segment, number) =>
    (segment.classDefs.toList.filter fun classDef =>
      !classDef.isInterface).map fun classDef =>
        { segmentNumber := number, segment := segment, classDef := classDef }

private theorem classDefinitions_eq_scanOrder (segments : List IndexedSegment) :
    classDefinitions segments = scanOrder segments := by
  rw [classDefinitions, Definition.ofSegments, Definition.ofSegmentsFrom_eq,
    List.filter_flatMap, scanOrder]
  congr 1
  funext ⟨segment, number⟩
  exact List.filter_map

def firstNames (summaries : List ClassSummary) : List String :=
  (summaries.map (·.name)).eraseDups

def latest? (summaries : List ClassSummary) (name : String) :
    Option ClassSummary :=
  (summaries.filter fun summary => summary.name = name).getLast?

/-- What is to be noted about a summary that comes after some others: the
segment of the last one of the same name among them, if there is one, and its
own. -/
def redefinitionAfter? (before : List ClassSummary) (summary : ClassSummary) :
    Option Redefinition :=
  (latest? before summary.name).map fun earlier =>
    { name := summary.name
      earlier := earlier.segmentNumber
      later := summary.segmentNumber }

def redefinitionsAmong (summaries : List ClassSummary) : List Redefinition :=
  (List.range summaries.length).filterMap fun index =>
    summaries[index]?.bind (redefinitionAfter? (summaries.take index))

variable {summaries : List ClassSummary} {summary : ClassSummary}

@[simp] theorem mem_firstNames_iff {name : String} :
    name ∈ firstNames summaries ↔ name ∈ summaries.map (·.name) :=
  List.mem_eraseDups

private theorem firstNames_concat_of_mem
    (known : summary.name ∈ firstNames summaries) :
    firstNames (summaries ++ [summary]) = firstNames summaries := by
  have nothingNew : [summary.name].removeAll (summaries.map (·.name)) = [] := by
    rw [List.removeAll, List.filter_eq_nil_iff, List.forall_mem_singleton,
      List.elem_eq_true_of_mem (mem_firstNames_iff.mp known)]
    decide
  rw [firstNames, List.map_append, List.eraseDups_append, List.map_singleton,
    nothingNew, List.eraseDups_nil, List.append_nil, firstNames]

private theorem firstNames_concat_of_not_mem
    (fresh : summary.name ∉ firstNames summaries) :
    firstNames (summaries ++ [summary]) =
      firstNames summaries ++ [summary.name] := by
  have unlisted : (summaries.map (·.name)).elem summary.name = false := by
    rw [Bool.eq_false_iff]
    exact fun listed =>
      fresh (mem_firstNames_iff.mpr (List.mem_of_elem_eq_true listed))
  have isNew : [summary.name].removeAll (summaries.map (·.name)) =
      [summary.name] := by
    rw [List.removeAll, List.filter_eq_self, List.forall_mem_singleton,
      unlisted]
    decide
  rw [firstNames, List.map_append, List.eraseDups_append, List.map_singleton,
    isNew]
  rfl

@[simp] theorem latest?_concat_self :
    latest? (summaries ++ [summary]) summary.name = some summary := by
  simp [latest?, List.filter_append]

private theorem latest?_concat_of_ne {name : String}
    (differs : name ≠ summary.name) :
    latest? (summaries ++ [summary]) name = latest? summaries name := by
  simp [latest?, List.filter_append, differs.symm]

private theorem latest?_eq_none {name : String}
    (unseen : name ∉ firstNames summaries) :
    latest? summaries name = none := by
  rw [latest?, List.getLast?_eq_none_iff, List.filter_eq_nil_iff]
  intro other member same
  refine unseen (List.mem_eraseDups.mpr ?_)
  rw [← of_decide_eq_true same]
  exact List.mem_map_of_mem member

private theorem redefinitionsAmong_concat :
    redefinitionsAmong (summaries ++ [summary]) =
      redefinitionsAmong summaries ++
        (redefinitionAfter? summaries summary).toList := by
  have earlierOnes : ∀ index ∈ List.range summaries.length,
      (summaries ++ [summary])[index]?.bind
          (redefinitionAfter? ((summaries ++ [summary]).take index)) =
        summaries[index]?.bind
          (redefinitionAfter? (summaries.take index)) := by
    intro index member
    have inside := List.mem_range.mp member
    rw [List.getElem?_append_left inside,
      List.take_append_of_le_length (Nat.le_of_lt inside)]
  have lastOne : (summaries ++ [summary])[summaries.length]?.bind
      (redefinitionAfter? ((summaries ++ [summary]).take summaries.length)) =
        redefinitionAfter? summaries summary := by
    rw [List.getElem?_concat_length, List.take_left, Option.bind_some]
  rw [redefinitionsAmong, List.length_append, List.length_singleton,
    List.range_succ, List.filterMap_append, List.filterMap_congr earlierOnes]
  rw [List.filterMap_cons, lastOne, redefinitionsAmong]
  cases redefinitionAfter? summaries summary with
  | none => rfl
  | some redefinition => rfl

def ClassTable.names (table : ClassTable) : List String :=
  table.entries.toList.map (·.name)

theorem ClassTable.positions_eq_idxOf? (table : ClassTable) (name : String) :
    table.positions[name]? = table.names.idxOf? name := by
  have at? (position : Nat) : table.positions[name]? = some position ↔
      table.names.idxOf? name = some position := by
    rw [table.positions_iff, List.idxOf?_eq_some_iff]
    simp only [names, List.length_map, Array.length_toList, List.getElem_map,
      Array.getElem_toList]
    constructor
    · intro ⟨inside, named⟩
      refine ⟨inside, named, ?_⟩
      intro other before otherNamed
      have otherInside : other < table.entries.size := by omega
      have same : (⟨other, otherInside⟩ : Fin table.size) =
          ⟨position, inside⟩ :=
        table.eq_of_name_eq (otherNamed.trans named.symm)
      exact (Nat.ne_of_lt before) (congrArg Fin.val same)
    · intro ⟨inside, named, _⟩
      exact ⟨inside, named⟩
  exact Option.ext at?

/-- What a survey holds after the definitions with these summaries. -/
structure HoldsLatest (summaries : List ClassSummary) (survey : Survey) :
    Prop where
  names : survey.table.names = firstNames summaries
  latest : ∀ entry ∈ survey.table.entries,
    latest? summaries entry.name = some entry
  positions : ∀ name, survey.table.positions[name]? =
    (firstNames summaries).idxOf? name
  redefinitions : survey.redefinitions.toList = redefinitionsAmong summaries

theorem holdsLatest_empty : HoldsLatest [] Survey.empty := by
  constructor
  case names => rfl
  case latest =>
    intro entry member
    exact (Array.not_mem_empty entry member).elim
  case positions =>
    intro name
    exact ClassTable.empty.positions_eq_idxOf? name
  case redefinitions => rfl

variable {survey : Survey}

private theorem HoldsLatest.names_record
    (holds : HoldsLatest summaries survey) :
    (survey.record summary).table.names =
      firstNames (summaries ++ [summary]) := by
  unfold Survey.record
  split
  · rename_i absent
    rw [holds.positions] at absent
    rw [firstNames_concat_of_not_mem (List.idxOf?_eq_none_iff.mp absent),
      ← holds.names, ClassTable.names, ClassTable.names, ClassTable.append,
      Array.toList_push, List.map_append, List.map_singleton]
  · rename_i position found
    obtain ⟨inside, named⟩ :=
      (survey.table.positions_iff summary.name position).mp found
    rw [holds.positions] at found
    obtain ⟨_, placed, _⟩ := List.idxOf?_eq_some_iff.mp found
    have known : summary.name ∈ firstNames summaries :=
      placed ▸ List.getElem_mem _
    rw [firstNames_concat_of_mem known, ← holds.names, ClassTable.names,
      ClassTable.names, ClassTable.replace, Array.toList_set, List.map_set]
    refine List.ext_getElem (by simp) ?_
    intro place placeInside oldInside
    by_cases here : position = place
    · subst here
      simpa using named.symm
    · rw [List.getElem_set_ne here]

private theorem HoldsLatest.redefinitions_record
    (holds : HoldsLatest summaries survey) :
    (survey.record summary).redefinitions.toList =
      redefinitionsAmong (summaries ++ [summary]) := by
  rw [redefinitionsAmong_concat, ← holds.redefinitions]
  unfold Survey.record
  split
  · rename_i absent
    rw [holds.positions] at absent
    have unseen := List.idxOf?_eq_none_iff.mp absent
    rw [redefinitionAfter?, latest?_eq_none unseen, Option.map_none,
      Option.toList_none, List.append_nil]
  · rename_i position found
    obtain ⟨inside, named⟩ :=
      (survey.table.positions_iff summary.name position).mp found
    have last := holds.latest _ (Array.getElem_mem inside)
    rw [named] at last
    rw [redefinitionAfter?, last, Option.map_some, Option.toList_some,
      Array.toList_push]
    rfl

private theorem HoldsLatest.record (holds : HoldsLatest summaries survey)
    (summary : ClassSummary) :
    HoldsLatest (summaries ++ [summary]) (survey.record summary) := by
  constructor
  case names => exact holds.names_record
  case latest =>
    intro entry member
    rcases (survey.mem_record_iff summary entry).mp member with
      rfl | ⟨old, differs⟩
    · exact latest?_concat_self
    · rw [latest?_concat_of_ne differs]
      exact holds.latest entry old
  case positions =>
    intro name
    rw [ClassTable.positions_eq_idxOf?, holds.names_record]
  case redefinitions => exact holds.redefinitions_record

/-! ### A whole survey -/

theorem Survey.extend_holdsLatest {definitions : List Definition}
    {read : List ClassSummary}
    (summarized : List.Forall₂ (Summarizes markers) definitions read) :
    ∀ (survey : Survey) (before : List ClassSummary),
      HoldsLatest before survey →
      ∃ last, survey.extend markers definitions = (last, none) ∧
        HoldsLatest (before ++ read) last := by
  induction summarized with
  | nil =>
      intro survey before holds
      rw [List.append_nil]
      exact ⟨survey, rfl, holds⟩
  | @cons definition summary _ _ found _ ih =>
      intro survey before holds
      have summarizes := (summarize_eq_ok_iff definition summary).mpr found
      obtain ⟨last, ended, still⟩ := ih _ _ (holds.record summary)
      rw [List.append_assoc] at still
      refine ⟨last, ?_, still⟩
      rw [Survey.extend, summarizes]
      exact ended

theorem Survey.exists_summaries_of_extend (definitions : List Definition) :
    ∀ survey last : Survey, survey.extend markers definitions = (last, none) →
      ∃ read, List.Forall₂ (Summarizes markers) definitions read := by
  induction definitions with
  | nil => exact fun _ _ _ => ⟨[], List.Forall₂.nil⟩
  | cons definition rest ih =>
      intro survey last ended
      rw [Survey.extend] at ended
      cases found : summarize markers definition with
      | error error =>
          rw [found] at ended
          cases ended
      | ok summary =>
          rw [found] at ended
          obtain ⟨read, summarized⟩ := ih _ _ ended
          exact ⟨summary :: read, List.Forall₂.cons
            ((summarize_eq_ok_iff definition summary).mp found) summarized⟩

theorem Survey.extend_append (front rest : List Definition) :
    ∀ survey middle : Survey, survey.extend markers front = (middle, none) →
      survey.extend markers (front ++ rest) = middle.extend markers rest := by
  induction front with
  | nil =>
      intro survey middle ended
      cases ended
      rfl
  | cons definition front ih =>
      intro survey middle ended
      rw [Survey.extend] at ended
      rw [List.cons_append, Survey.extend]
      cases found : summarize markers definition with
      | error error =>
          rw [found] at ended
          cases ended
      | ok summary =>
          rw [found] at ended
          exact ih _ _ ended

private theorem Survey.redefinitions_prefix_record (survey : Survey)
    (summary : ClassSummary) :
    survey.redefinitions.toList <+:
      (survey.record summary).redefinitions.toList := by
  unfold Survey.record
  split
  · exact List.prefix_refl _
  · rw [Array.toList_push]
    exact List.prefix_append _ _

theorem Survey.redefinitions_prefix_extend (definitions : List Definition) :
    ∀ survey : Survey, survey.redefinitions.toList <+:
      (survey.extend markers definitions).1.redefinitions.toList := by
  induction definitions with
  | nil => exact fun survey => List.prefix_refl _
  | cons definition rest ih =>
      intro survey
      rw [Survey.extend]
      cases summarize markers definition with
      | error error => exact List.prefix_refl _
      | ok summary =>
          exact (survey.redefinitions_prefix_record summary).trans (ih _)

private theorem discover_redefinitions (segments : List IndexedSegment) :
    (discover markers segments).redefinitions =
      (Survey.ofSegments markers segments).1.redefinitions.toList := by
  unfold discover
  split <;> rename_i surveyed <;> rw [surveyed]

def redefinitionText (name : String) (earlier later : Nat) : String :=
  "class " ++ name ++ " defined in dex segments #" ++ toString earlier ++
    " and #" ++ toString later ++ ", keeping the latter"

private theorem Redefinition.message_eq (redefinition : Redefinition) :
    redefinition.message = redefinitionText redefinition.name
      redefinition.earlier redefinition.later := by
  simp only [message, redefinitionText, toString, String.append_assoc]
  rfl

/-- The scan reaches a point exactly if all definitions before it can be
summarized.  The survey then holds the last summary of each name, in order of
first appearance, has told of one redefinition for each name seen again, and
goes on with the definitions that are left. -/
theorem survey_holds_latest_at_every_point (markers : List String)
    (segments : List IndexedSegment) (seen rest : List Definition)
    (split : scanOrder segments = seen ++ rest) :
    (∀ summaries, List.Forall₂ (Summarizes markers) seen summaries →
      ∃ survey, Survey.empty.extend markers seen = (survey, none) ∧
        HoldsLatest summaries survey ∧
        survey.redefinitions.toList.map Redefinition.message =
          (redefinitionsAmong summaries).map (fun noted =>
            redefinitionText noted.name noted.earlier noted.later) ∧
        Survey.ofSegments markers segments = survey.extend markers rest ∧
        survey.redefinitions.toList <+:
          (discover markers segments).redefinitions) ∧
    ∀ survey, Survey.empty.extend markers seen = (survey, none) →
      ∃ summaries, List.Forall₂ (Summarizes markers) seen summaries := by
  have whole : Survey.ofSegments markers segments =
      Survey.empty.extend markers (seen ++ rest) := by
    rw [← split, ← classDefinitions_eq_scanOrder]
    rfl
  constructor
  · intro summaries summarized
    obtain ⟨survey, reached, holds⟩ :=
      Survey.extend_holdsLatest summarized _ _ holdsLatest_empty
    have goesOn := whole.trans (Survey.extend_append seen rest _ _ reached)
    refine ⟨survey, reached, holds, ?_, goesOn, ?_⟩
    · rw [holds.redefinitions]
      exact List.map_congr_left fun noted _ => noted.message_eq
    · rw [discover_redefinitions, goesOn]
      exact survey.redefinitions_prefix_extend rest
  · exact Survey.exists_summaries_of_extend seen Survey.empty

/-! ### A class defined three times -/

def earlierPart : IndexedSegment :=
  (threeTypes #[bareClass 0 1, bareClass 1 2]).indexed

/-- `A` as an interface, then twice as a class. -/
def laterPart : IndexedSegment :=
  (threeTypes #[{ bareClass 0 1 with accessFlags := 0x200 }, bareClass 0 2,
    bareClass 0 1]).indexed

def bareDefinition (number : Nat) (segment : IndexedSegment)
    (type superclass : UInt32) : Definition :=
  { segmentNumber := number
    segment := segment
    classDef := bareClass type superclass }

def bareSummary (number : Nat) (type : UInt32) (name superclass : String) :
    ClassSummary :=
  { name := name
    segmentNumber := number
    classType := type
    superclassName := some superclass
    annotations := []
    tests := []
    isConcrete := true }

private theorem thrice_scanned :
    scanOrder [earlierPart, laterPart] =
      [bareDefinition 1 earlierPart 0 1, bareDefinition 1 earlierPart 1 2,
        bareDefinition 2 laterPart 0 2] ++ [bareDefinition 2 laterPart 0 1] := by
  rfl

private theorem thrice_summarized :
    List.Forall₂ (Summarizes [])
      [bareDefinition 1 earlierPart 0 1, bareDefinition 1 earlierPart 1 2,
        bareDefinition 2 laterPart 0 2]
      [bareSummary 1 0 "A" "B", bareSummary 1 1 "B" "C",
        bareSummary 2 0 "A" "C"] := by
  obtain ⟨first, second, third⟩ :=
    threeTypes_className #[bareClass 0 1, bareClass 1 2]
  obtain ⟨laterFirst, _, laterThird⟩ := threeTypes_className
    #[{ bareClass 0 1 with accessFlags := 0x200 }, bareClass 0 2, bareClass 0 1]
  refine List.Forall₂.cons ?_ (List.Forall₂.cons ?_
    (List.Forall₂.cons ?_ List.Forall₂.nil))
  · exact summarizes_of_no_directory first
      (hasSuperclassName_of_type 1 rfl second) rfl
  · exact summarizes_of_no_directory second
      (hasSuperclassName_of_type 2 rfl third) rfl
  · exact summarizes_of_no_directory laterFirst
      (hasSuperclassName_of_type 2 rfl laterThird) rfl

/-- After the second definition of `A`, which follows an interface of the same
name, the table has that definition in the place of the first one. -/
theorem thrice_holds_second :
    ∃ survey : Survey, Survey.ofSegments [] [earlierPart, laterPart] =
        survey.extend [] [bareDefinition 2 laterPart 0 1] ∧
      survey.table.names = ["A", "B"] ∧
      (∀ entry ∈ survey.table.entries, entry.name = "A" →
        entry.superclassName = some "C") ∧
      survey.redefinitions.toList =
        [{ name := "A", earlier := 1, later := 2 }] ∧
      survey.redefinitions.toList.map Redefinition.message =
        ["class A defined in dex segments #1 and #2, keeping the latter"] := by
  obtain ⟨reaches, _⟩ := survey_holds_latest_at_every_point []
    [earlierPart, laterPart] _ _ thrice_scanned
  obtain ⟨survey, _, holds, told, goesOn, _⟩ := reaches _ thrice_summarized
  refine ⟨survey, goesOn, holds.names, ?_, holds.redefinitions,
    told.trans (by decide)⟩
  intro entry member named
  have last := holds.latest entry member
  rw [named] at last
  cases last
  rfl

end JUnit4
end DexCensus
