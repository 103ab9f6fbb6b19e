/-
The annotations of all tests are maps.

Resolving collects the named values of an annotation in ascending order, at
every depth.  Annotations keep their values on the way from a class or a
method to the tests that carry them, down to the subclasses that inherit these
tests.
-/

import DexCensus.Proofs.Arrangement.Discovery
import DexCensus.Proofs.Identity
import DexCensus.Proofs.JUnit3.Closure
import DexCensus.Proofs.JUnit4.InheritedTest
import DexCensus.Proofs.JUnit4.OwnTests
import DexCensus.Proofs.Resolution

namespace DexCensus

open Dex

theorem NamedValues.Collects.proper {values : NamedValues}
    {pairs : List (String × Value)} (collects : Collects values pairs)
    (each : ∀ value ∈ pairs.map Prod.snd, value.Proper) : values.Proper := by
  refine ⟨collects.ascending, fun pair member => ?_⟩
  exact each _ (List.mem_map_of_mem (collects.last pair member).mem)

theorem proper_of_forall₂ {segment : Segment} {sources : List EncodedValue}
    {values : List Value}
    (each : ∀ source ∈ sources, ∀ value, segment.Resolves source value →
      value.Proper)
    (resolved : List.Forall₂ segment.Resolves sources values) :
    ∀ value ∈ values, value.Proper := by
  intro value member
  obtain ⟨source, inSources, resolves⟩ :=
    exists_mem_of_forall₂ resolved.flip value member
  exact each source inSources value resolves

theorem Dex.Segment.Resolves.proper {segment : Segment} {tree : EncodedValue}
    {value : Value} (resolves : segment.Resolves tree value) :
    value.Proper := by
  induction tree using EncodedValue.subvalues_induction generalizing value with
  | step tree ih =>
      cases resolves with
      | array resolved =>
          rw [Value.proper_array_iff]
          exact proper_of_forall₂ (fun source inside _ => ih source inside)
            resolved
      | nested _ _ _ resolved collects =>
          rw [Value.proper_nested_iff]
          exact collects.proper (proper_of_forall₂
            (fun source inside _ => ih source inside) resolved)
      | _ => exact .leaf rfl

private theorem proper_resolveItem {segment : IndexedSegment} {item : Item}
    {entry : TestAnnotation} (resolved : segment.resolveItem item = .ok entry) :
    entry.values.Proper := by
  obtain ⟨_, _, rest⟩ := bind_eq_ok_iff.mp resolved
  obtain ⟨pairs, listed, rest⟩ := bind_eq_ok_iff.mp rest
  obtain ⟨_, _, whole⟩ := bind_eq_ok_iff.mp rest
  obtain ⟨_, values⟩ := (segment.resolveElements_eq_ok_iff _ pairs).mp listed
  simp only [Segment.resolve_eq_ok_iff] at values
  cases whole
  exact (NamedValues.collects_ofPairs pairs).proper
    (proper_of_forall₂ (fun _ _ _ resolves => resolves.proper) values)

theorem proper_annotationsAt {segment : IndexedSegment} {offset : UInt32}
    {entries : List TestAnnotation}
    (found : segment.annotationsAt offset = .ok entries) :
    ∀ entry ∈ entries, entry.values.Proper := by
  intro entry member
  obtain ⟨_, _, resolved⟩ := bind_eq_ok_iff.mp found
  obtain ⟨_, _, resolvedHere⟩ := (mem_of_mapM_eq_ok resolved entry).mp member
  exact proper_resolveItem resolvedHere

private theorem proper_classAnnotations {segment : IndexedSegment}
    {directory : Option Directory} {entries : List TestAnnotation}
    (found : segment.classAnnotations directory = .ok entries) :
    ∀ entry ∈ entries, entry.values.Proper := by
  cases directory with
  | none =>
      cases found
      simp
  | some directory => exact proper_annotationsAt found

namespace JUnit4

variable {markers : List String}

private theorem proper_of_contributes {segment : IndexedSegment}
    {directory : Directory} {className : String}
    {entries : List TestAnnotation} {method : UInt32} {test : TestMethod}
    (contributes : Contributes markers segment directory className entries
      method (some test))
    (proper : ∀ entry ∈ entries, entry.values.Proper) : test.Proper := by
  cases contributes with
  | test pair _ _ =>
      obtain ⟨offset, _, annotations⟩ := pair
      intro entry member
      rcases List.mem_append.mp member with ofClass | ofMethod
      · exact proper entry ofClass
      · exact proper_annotationsAt
          ((annotationsAt_eq_ok_iff segment offset _).mpr annotations)
          entry ofMethod

theorem Summarizes.proper_annotations {definition : Definition}
    {summary : ClassSummary}
    (summarizes : Summarizes markers definition summary) :
    ∀ entry ∈ summary.annotations, entry.values.Proper := by
  obtain ⟨_, _, resolved, _⟩ := summarizes.contents
  exact proper_classAnnotations resolved

private theorem Summarizes.proper_tests {definition : Definition}
    {summary : ClassSummary}
    (summarizes : Summarizes markers definition summary) :
    ∀ test ∈ summary.tests, test.Proper := by
  obtain ⟨directory?, _, _, listed⟩ := summarizes.contents
  intro test member
  cases directory? with
  | none =>
      rw [← Except.ok.inj listed] at member
      cases member
  | some directory =>
      obtain ⟨methods, _, marked⟩ := bind_eq_ok_iff.mp listed
      obtain ⟨found, each, whole⟩ := bind_eq_ok_iff.mp marked
      rw [← Except.ok.inj whole, mem_appendNew_iff] at member
      have inFound : some test ∈ found := by simpa using member
      obtain ⟨method, _, contributed⟩ :=
        (mem_of_mapM_eq_ok each (some test)).mp inFound
      exact proper_of_contributes
        ((markedTest?_eq_ok_iff _ _ _ _ _ _ _).mp contributed)
        summarizes.proper_annotations

private theorem proper_rehome {child : ClassSummary} {test : TestMethod}
    (childProper : ∀ entry ∈ child.annotations, entry.values.Proper)
    (proper : test.Proper) : (rehome child test).Proper := by
  intro entry member
  rcases List.mem_append.mp member with kept | ofChild
  · exact proper entry (List.mem_filter.mp kept).1
  · exact childProper entry ofChild

private theorem Represents.proper_complete {table : ClassTable}
    {definitions : List Definition}
    (represents : Represents markers table definitions)
    (acyclic : table.Acyclic) (position : Fin table.size) :
    ∀ test ∈ complete table acyclic position, test.Proper := by
  induction position using acyclic.wellFounded.induction with
  | _ position ih =>
      obtain ⟨definition, stands⟩ := represents.exists_definition position
      intro test member
      rcases own_or_rehomed_of_mem_complete acyclic member with
        own | ⟨parent, edge, moved, inherited, rfl⟩
      · exact stands.summarizes.proper_tests test own
      · exact proper_rehome stands.summarizes.proper_annotations
          (ih parent edge moved inherited)

theorem proper_of_findTests {segments : List IndexedSegment}
    {tests : List TestMethod}
    (found : findTests markers segments = .ok tests) :
    ∀ test ∈ tests, test.Proper := by
  obtain ⟨survey, surveyed, acyclic, rfl⟩ :=
    (findTests_eq_ok_iff segments tests).mp found
  have represents := Survey.represents_of_ofSegments surveyed
  intro test member
  obtain ⟨position, _, inComplete⟩ :=
    (mem_concreteTests_iff acyclic test).mp member
  exact represents.proper_complete acyclic position test inComplete

end JUnit4

theorem JUnit3.proper_of_findTests {segments : List IndexedSegment}
    {tests : List TestMethod} (found : JUnit3.findTests segments = .ok tests) :
    ∀ test ∈ tests, test.Proper := by
  intro test member entry annotated
  obtain ⟨_, mem_iff⟩ := JUnit3.mem_findTests_iff found
  rw [((mem_iff test).mp member).1] at annotated
  cases annotated

theorem Discovery.proper_of_findMethods {markers : List String}
    {buffers : List Bytes} {tests : List TestMethod}
    (found : Discovery.findMethods markers buffers = .ok tests) :
    ∀ test ∈ tests, test.Proper := by
  obtain ⟨_, _, _, _, byName, byMarker, rfl⟩ :=
    (Discovery.findMethods_eq_ok_iff markers buffers tests).mp found
  intro test member
  rw [Discovery.merged, (TestMethod.sortedByName_perm _).mem_iff,
    List.mem_append] at member
  rcases member with inJUnit3 | inJUnit4
  · exact JUnit3.proper_of_findTests byName test inJUnit3
  · exact JUnit4.proper_of_findTests byMarker test inJUnit4

end DexCensus
