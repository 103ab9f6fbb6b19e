/-
Where a discovery that fails was reading.

Discovery reads in three phases.  It parses the buffers, it scans all
definitions for JUnit3 tests, and it summarizes the classes for JUnit4 tests.
An error of any kind but one is that of the first reading that fails, and the
buffer that was read is known from the phase and the definition.  The kind
left out is that of a cycle in the hierarchy, which is found when all reading
is done.

Such an error tells the number of the buffer as its last place, unless it
arose in a scan from the descriptor of a superclass or of a test class.  These
two lookups are told without any place.
-/

import DexCensus.Discovery
import DexCensus.Proofs.JUnit3.Closure
import DexCensus.Proofs.JUnit4.Cycle

namespace DexCensus

open Dex

/-- The outermost place of an error is a segment, and its text ends there. -/
structure DexError.EndsInSegment (error : DexError) (number : Nat) : Prop where
  outermost : error.places.getLast? = some (.ofSegment number)
  text : ∃ front, error.message = front ++ (Place.ofSegment number).label

@[simp] theorem DexError.trail_concat (inner : List Place) (place : Place) :
    ∃ front, DexError.trail (inner ++ [place]) = front ++ place.label := by
  cases inner with
  | nil =>
      exact ⟨" for ", by simp [DexError.trail]⟩
  | cons innermost outer =>
      refine ⟨DexError.trail (innermost :: outer) ++ " of ", ?_⟩
      simp [DexError.trail, String.join_append, String.append_assoc]

theorem DexError.endsInSegment_inside (error : DexError) (number : Nat) :
    (error.inside (.ofSegment number)).EndsInSegment number := by
  obtain ⟨front, ends⟩ := trail_concat error.places (.ofSegment number)
  constructor
  case outermost => exact List.getLast?_concat
  case text =>
    refine ⟨error.kind.label ++ ": " ++ error.detail ++ front, ?_⟩
    rw [String.append_assoc, ← ends]
    rfl

private theorem parseSegmentsFrom_cases (buffers : List Bytes) :
    ∀ first done,
      (∃ segments, parseSegmentsFrom first done buffers =
          .ok (done.reverse ++ segments) ∧
        buffers.mapM IndexedSegment.parse = .ok segments) ∨
      (∃ before bytes after fault, buffers = before ++ bytes :: after ∧
        (∀ earlier ∈ before, ∃ segment,
          IndexedSegment.parse earlier = .ok segment) ∧
        IndexedSegment.parse bytes = .error fault ∧
        parseSegmentsFrom first done buffers =
          .error ((DexError.bare fault).inside
            (.ofSegment (first + before.length)))) := by
  induction buffers with
  | nil =>
      intro first done
      exact Or.inl ⟨[], by rw [List.append_nil]; rfl, rfl⟩
  | cons bytes rest ih =>
      intro first done
      rw [parseSegmentsFrom]
      cases parsed : IndexedSegment.parse bytes with
      | error fault =>
          exact Or.inr ⟨[], bytes, rest, fault, rfl, by simp, parsed, rfl⟩
      | ok segment =>
          rcases ih (first + 1) (segment :: done) with
            ⟨segments, reached, each⟩ |
              ⟨before, stopped, after, fault, split, parses, failed, reached⟩
          · refine Or.inl ⟨segment :: segments, ?_, ?_⟩
            · simpa using reached
            · rw [List.mapM_cons, parsed, each]
              rfl
          · refine Or.inr ⟨bytes :: before, stopped, after, fault, ?_, ?_,
              failed, ?_⟩
            · rw [split, List.cons_append]
            · intro earlier member
              rcases List.mem_cons.mp member with here | later
              · exact ⟨segment, here ▸ parsed⟩
              · exact parses earlier later
            · rw [List.length_cons, Nat.add_comm before.length 1,
                ← Nat.add_assoc]
              exact reached

/-- The definition stands in the segment that the buffer at an index holds. -/
structure Definition.ReadFrom (buffers : List Bytes) (index : Nat)
    (definition : Definition) : Prop where
  numbered : definition.segmentNumber = index + 1
  held : ∃ bytes, buffers[index]? = some bytes ∧
    IndexedSegment.parse bytes = .ok definition.segment

theorem Definition.exists_readFrom {buffers : List Bytes}
    {segments : List IndexedSegment} {definition : Definition}
    (each : buffers.mapM IndexedSegment.parse = .ok segments)
    (member : definition ∈ Definition.ofSegments segments) :
    ∃ index, definition.ReadFrom buffers index := by
  obtain ⟨index, numbered, found, _⟩ := mem_ofSegmentsFrom_iff.mp member
  have holds := mapM_eq_ok_iff.mp each
  have inside : index < segments.length :=
    (List.getElem?_eq_some_iff.mp found).1
  have insideBuffers : index < buffers.length := by
    rw [holds.length_eq]
    exact inside
  refine ⟨index, by omega, buffers[index],
    List.getElem?_eq_getElem insideBuffers, ?_⟩
  have parsed := holds.get insideBuffers inside
  rw [List.get_eq_getElem, List.get_eq_getElem,
    (List.getElem?_eq_some_iff.mp found).2] at parsed
  exact parsed

namespace JUnit4

variable {markers : List String}

private theorem endsInSegment_of_summarize {definition : Definition}
    {error : DexError} (failed : summarize markers definition = .error error) :
    error.EndsInSegment definition.segmentNumber := by
  unfold summarize at failed
  split at failed
  · cases failed
    exact DexError.endsInSegment_inside _ _
  · split at failed
    · cases failed
      exact DexError.endsInSegment_inside _ _
    · cases failed

private theorem Survey.extend_stops (definitions : List Definition) :
    ∀ {survey last : Survey} {error : DexError},
      survey.extend markers definitions = (last, some error) →
        ∃ before definition after,
          definitions = before ++ definition :: after ∧
          (∀ earlier ∈ before, ∃ summary,
            summarize markers earlier = .ok summary) ∧
          summarize markers definition = .error error := by
  induction definitions with
  | nil =>
      intro survey last error failed
      cases failed
  | cons definition rest ih =>
      intro survey last error failed
      rw [Survey.extend] at failed
      cases summarized : summarize markers definition with
      | error other =>
          simp only [summarized] at failed
          cases failed
          exact ⟨[], definition, rest, rfl, by simp, summarized⟩
      | ok summary =>
          simp only [summarized] at failed
          obtain ⟨before, stopped, after, split, summaries, stops⟩ :=
            ih failed
          refine ⟨definition :: before, stopped, after, ?_, ?_, stops⟩
          · rw [split, List.cons_append]
          · intro earlier member
            rcases List.mem_cons.mp member with here | later
            · exact ⟨summary, here ▸ summarized⟩
            · exact summaries earlier later

private theorem findTests_stops {segments : List IndexedSegment}
    {error : DexError}
    (failed : findTests markers segments = .error error)
    (reading : error.kind ≠ .cyclicHierarchy) :
    ∃ before definition after,
      classDefinitions segments = before ++ definition :: after ∧
      (∀ earlier ∈ before, ∃ summary,
        summarize markers earlier = .ok summary) ∧
      summarize markers definition = .error error := by
  unfold findTests discover at failed
  cases surveyed : Survey.ofSegments markers segments with
  | mk survey outcome =>
      rw [surveyed] at failed
      cases outcome with
      | some other =>
          cases failed
          exact Survey.extend_stops (classDefinitions segments) surveyed
      | none =>
          simp only [testsOfSurvey] at failed
          rcases harvest_cases survey.table with ⟨⟨tests, found⟩, _⟩ |
            ⟨position, cyclic, _⟩
          · rw [found] at failed
            cases failed
          · rw [cyclic] at failed
            cases failed
            exact (reading rfl).elim

end JUnit4

/-! ### All phases -/

namespace Discovery

open JUnit4

variable {markers : List String} {buffers : List Bytes}

/-- A scan looks up a descriptor in the buffer at an index and cannot read
it: that of a superclass, or that of a class whose superclass is a base. -/
inductive StopsAtDescriptor (buffers : List Bytes) (index : Nat)
    (fault : Fault) : Prop
  | superclass {segments : List IndexedSegment} {definition : Definition} :
      parseSegments buffers = .ok segments →
      definition ∈ Definition.ofSegments segments →
      definition.ReadFrom buffers index →
      definition.segment.superclassDescriptor? definition.classDef =
        .error fault →
      StopsAtDescriptor buffers index fault
  | testClass {segments : List IndexedSegment} {definition : Definition} :
      parseSegments buffers = .ok segments →
      JUnit3.TestClass (Definition.ofSegments segments) definition →
      definition.ReadFrom buffers index →
      definition.segment.classDescriptor definition.classDef = .error fault →
      StopsAtDescriptor buffers index fault

/-- All other readings that stop discovery in the buffer at an index: the
buffer is the first that holds no segment, or the tests of a test class cannot
be listed, or a class is the first that has no summary. -/
inductive StopsInside (markers : List String) (buffers : List Bytes)
    (index : Nat) (fault : Fault) : Prop
  | parsing {before after : List Bytes} {bytes : Bytes} :
      buffers = before ++ bytes :: after → before.length = index →
      (∀ earlier ∈ before, ∃ segment,
        IndexedSegment.parse earlier = .ok segment) →
      IndexedSegment.parse bytes = .error fault →
      StopsInside markers buffers index fault
  | listing {segments : List IndexedSegment} {definition : Definition} :
      parseSegments buffers = .ok segments →
      JUnit3.TestClass (Definition.ofSegments segments) definition →
      definition.ReadFrom buffers index →
      JUnit3.testsOf definition = .error fault →
      StopsInside markers buffers index fault
  | summarizing {segments : List IndexedSegment}
      {before after : List Definition} {definition : Definition}
      {error : DexError} :
      parseSegments buffers = .ok segments →
      classDefinitions segments = before ++ definition :: after →
      (∀ earlier ∈ before, ∃ summary,
        summarize markers earlier = .ok summary) →
      definition.ReadFrom buffers index →
      summarize markers definition = .error error → error.fault = fault →
      StopsInside markers buffers index fault

/-- The two ways in which an error tells of the reading that it stopped. -/
inductive Told (markers : List String) (buffers : List Bytes) (index : Nat)
    (error : DexError) : Prop
  | withSegment :
      StopsInside markers buffers index error.fault →
      error.EndsInSegment (index + 1) → Told markers buffers index error
  | withoutPlace :
      StopsAtDescriptor buffers index error.fault →
      error.places = [] → Told markers buffers index error

private theorem told_of_scan {segments : List IndexedSegment} {error : DexError}
    (each : buffers.mapM IndexedSegment.parse = .ok segments)
    (parsed : parseSegments buffers = .ok segments)
    (failed : JUnit3.findTests segments = .error error) :
    ∃ index, Told markers buffers index error := by
  obtain ⟨definition, stops⟩ := JUnit3.findTests_stops failed
  obtain ⟨index, readFrom⟩ := Definition.exists_readFrom each stops.mem
  refine ⟨index, ?_⟩
  cases stops with
  | superclass member unread =>
      exact .withoutPlace (.superclass parsed member readFrom unread) rfl
  | descriptor testClass unread =>
      exact .withoutPlace (.testClass parsed testClass readFrom unread) rfl
  | tests testClass described unread =>
      refine .withSegment (.listing parsed testClass readFrom unread) ?_
      rw [← readFrom.numbered]
      exact DexError.endsInSegment_inside _ _

private theorem told_of_survey {segments : List IndexedSegment}
    {error : DexError}
    (each : buffers.mapM IndexedSegment.parse = .ok segments)
    (parsed : parseSegments buffers = .ok segments)
    (failed : JUnit4.findTests markers segments = .error error)
    (reading : error.kind ≠ .cyclicHierarchy) :
    ∃ index, Told markers buffers index error := by
  obtain ⟨before, definition, after, split, summaries, stops⟩ :=
    JUnit4.findTests_stops failed reading
  have member : definition ∈ classDefinitions segments := by
    rw [split]
    exact List.mem_append_right before List.mem_cons_self
  obtain ⟨index, readFrom⟩ :=
    Definition.exists_readFrom each (List.mem_filter.mp member).1
  refine ⟨index, .withSegment
    (.summarizing parsed split summaries readFrom stops rfl) ?_⟩
  rw [← readFrom.numbered]
  exact endsInSegment_of_summarize stops

/-- A discovery that fails, but not over a cycle, was stopped by a reading in
one of the buffers.  Its error ends in the number of that buffer, counted from
one, unless the reading was that of a descriptor in a scan. -/
theorem findMethods_error_told {error : DexError}
    (failed : findMethods markers buffers = .error error)
    (reading : error.kind ≠ .cyclicHierarchy) :
    ∃ index, Told markers buffers index error := by
  unfold findMethods ofBuffers at failed
  rcases parseSegmentsFrom_cases buffers 1 [] with
    ⟨segments, parsed, each⟩ |
      ⟨before, bytes, after, fault, split, parses, unread, parsed⟩
  · have parsedAll : parseSegments buffers = .ok segments := parsed
    rw [parsedAll] at failed
    simp only [ofSegments] at failed
    cases searched : JUnit3.findTests segments with
    | error other =>
        simp only [searched] at failed
        cases failed
        exact told_of_scan each parsedAll searched
    | ok junit3 =>
        simp only [searched] at failed
        cases found : JUnit4.findTests markers segments with
        | error other =>
            unfold JUnit4.findTests at found
            rw [found] at failed
            cases failed
            exact told_of_survey each parsedAll found reading
        | ok junit4 =>
            unfold JUnit4.findTests at found
            rw [found] at failed
            cases failed
  · have parsedAll : parseSegments buffers = .error _ := parsed
    rw [parsedAll] at failed
    cases failed
    refine ⟨before.length, .withSegment (.parsing split rfl parses unread) ?_⟩
    rw [Nat.add_comm before.length 1]
    exact DexError.endsInSegment_inside _ _

/-- A segment without types that defines one class, of type zero and with a
superclass of type zero. -/
def noTypesBytes : Bytes :=
  #[0x64, 0x65, 0x78, 0x0a, 0x30, 0x33, 0x35, 0,
    0, 0, 0, 0,
    0, 0, 0, 0, 0, 0, 0, 0, 0, 0, 0, 0, 0, 0, 0, 0, 0, 0, 0, 0,
    0, 0, 0, 0, 0x70, 0, 0, 0, 0x78, 0x56, 0x34, 0x12,
    0, 0, 0, 0, 0, 0, 0, 0, 0, 0, 0, 0,
    0, 0, 0, 0, 0, 0, 0, 0,
    0, 0, 0, 0, 0, 0, 0, 0,
    0, 0, 0, 0, 0, 0, 0, 0,
    0, 0, 0, 0, 0, 0, 0, 0,
    0, 0, 0, 0, 0, 0, 0, 0,
    1, 0, 0, 0, 112, 0, 0, 0,
    0, 0, 0, 0, 0, 0, 0, 0,
    0, 0, 0, 0, 0, 0, 0, 0, 0, 0, 0, 0, 0, 0, 0, 0,
    0, 0, 0, 0, 0, 0, 0, 0, 0, 0, 0, 0, 0, 0, 0, 0]

set_option maxRecDepth 8000 in
theorem parse_noTypesBytes :
    ∃ segment, IndexedSegment.parse noTypesBytes = .ok segment ∧
      ∃ definition, Definition.ofSegments [segment] = [definition] ∧
        definition.segment.superclassDescriptor? definition.classDef =
          .error (.indexOutOfRange .types 0 0) :=
  ⟨_, rfl, _, rfl, rfl⟩

/-- The header of the second buffer is missing, and the error says so. -/
theorem emptySecond_told :
    findMethods [] [noTypesBytes, #[]] =
        .error ((DexError.bare (.headerTruncated 0)).inside (.ofSegment 2)) ∧
      ∃ index, Told [] [noTypesBytes, #[]] index
        ((DexError.bare (.headerTruncated 0)).inside (.ofSegment 2)) := by
  obtain ⟨segment, parsed, _⟩ := parse_noTypesBytes
  have failed : findMethods [] [noTypesBytes, #[]] =
      .error ((DexError.bare (.headerTruncated 0)).inside (.ofSegment 2)) := by
    rw [findMethods, ofBuffers, parseSegments, parseSegmentsFrom, parsed]
    rfl
  exact ⟨failed, findMethods_error_told failed (by decide)⟩

/-- The error of a superclass that cannot be read names no segment. -/
theorem noTypesBytes_error_names_no_segment :
    ∃ error, findMethods [] [noTypesBytes] = .error error ∧
      error.kind ≠ .cyclicHierarchy ∧
      error.message =
        "malformed dex container: Type index 0 out of range (0 types)" ∧
      ∀ number, ¬ error.EndsInSegment number := by
  obtain ⟨segment, parsed, definition, only, unread⟩ := parse_noTypesBytes
  have parsedAll : parseSegments [noTypesBytes] = .ok [segment] := by
    rw [parseSegments, parseSegmentsFrom, parsed]
    rfl
  have examined :
      (JUnit3.Scan.start JUnit3.Search.initial).examine definition =
        .error (.bare (.indexOutOfRange .types 0 0)) := by
    rw [JUnit3.Scan.examine, unread]
  have scanned : JUnit3.Search.initial.scan [definition] =
      .error (.bare (.indexOutOfRange .types 0 0)) := by
    rw [JUnit3.Search.scan, List.foldlM_cons, examined]
    rfl
  have searched : JUnit3.findTests [segment] =
      .error (.bare (.indexOutOfRange .types 0 0)) := by
    rw [JUnit3.findTests, only, JUnit3.Search.complete_of_error scanned]
    rfl
  refine ⟨.bare (.indexOutOfRange .types 0 0), ?_, by decide, by decide, ?_⟩
  · rw [findMethods, ofBuffers, parsedAll]
    simp only [ofSegments, searched]
  · intro number ends
    have none : (none : Option Place) = some (.ofSegment number) :=
      ends.outermost
    cases none

end Discovery
end DexCensus
