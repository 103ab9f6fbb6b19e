/-
Discovery with fewer markers.

A marker decides whether a method is a test, and with that whether the name of
the method is read at all.  It decides nothing else: the annotations of a test
and the classes and their superclasses are the same with any markers.  With
fewer markers every step of discovery therefore succeeds if it does with more,
and whatever it finds is found with more.

The empty name and the name of the marker that every package has make no
difference, and neither do order and repeats.
-/

import DexCensus.Proofs.Repetition

namespace DexCensus

open Dex

namespace JUnit4

def MarkersWithin (narrow wide : List String) : Prop :=
  ∀ name ∈ narrow, name ≠ "" → name ∈ wide ∨ name = testMarker

variable {narrow wide : List String}

theorem isMarker_iff (markers : List String) (name : String) :
    isMarker markers name = true ↔
      name = testMarker ∨ (name ≠ "" ∧ name ∈ markers) := by
  simp [isMarker]

private theorem MarkersWithin.isMarker (within : MarkersWithin narrow wide)
    {name : String} (marks : isMarker narrow name = true) :
    isMarker wide name = true := by
  rw [isMarker_iff] at marks ⊢
  rcases marks with always | ⟨nonempty, given⟩
  · exact Or.inl always
  · rcases within name given nonempty with inWide | always
    · exact Or.inr ⟨nonempty, inWide⟩
    · exact Or.inl always

private theorem isMarker_congr
    (same : ∀ name, name ≠ "" → name ≠ testMarker →
      (name ∈ narrow ↔ name ∈ wide)) :
    JUnit4.isMarker narrow = JUnit4.isMarker wide := by
  funext name
  rw [Bool.eq_iff_iff, isMarker_iff, isMarker_iff]
  by_cases always : name = testMarker
  · exact iff_of_true (Or.inl always) (Or.inl always)
  · by_cases empty : name = ""
    · simp [empty]
    · rw [same name empty always]

section Segment

variable {segment : IndexedSegment}

private theorem MarkersWithin.markedTest? (within : MarkersWithin narrow wide)
    (directory : Directory) (className : String)
    (entries : List TestAnnotation) (method : UInt32) :
    Follows (fun more fewer => ∀ test, fewer = some test → more = some test)
      (JUnit4.markedTest? wide segment directory className entries method)
      (JUnit4.markedTest? narrow segment directory className entries
        method) := by
  unfold JUnit4.markedTest?
  by_cases listed : directory.hasMethod method = true
  · rw [if_pos listed, if_pos listed]
    apply (Follows.refl _).bindSame
    intro own
    by_cases marked : ((entries ++ own).any fun entry =>
        JUnit4.isMarker narrow entry.name) = true
    · have stillMarked : ((entries ++ own).any fun entry =>
          JUnit4.isMarker wide entry.name) = true := by
        obtain ⟨entry, member, marks⟩ := List.any_eq_true.mp marked
        exact List.any_eq_true.mpr ⟨entry, member, within.isMarker marks⟩
      rw [if_pos marked, if_pos stillMarked]
      apply (Follows.refl _).bindSame
      intro name
      exact Follows.ok fun test same => same
    · rw [if_neg marked]
      intro more found
      exact ⟨none, rfl, by simp⟩
  · rw [if_neg listed, if_neg listed]
    exact Follows.ok fun test same => same

private theorem MarkersWithin.ownTests (within : MarkersWithin narrow wide)
    (classDef : ClassDef) (directory : Option Directory) (className : String)
    (entries : List TestAnnotation) :
    Follows (fun more fewer => ∀ test ∈ fewer, test ∈ more)
      (JUnit4.ownTests wide segment classDef directory className entries)
      (JUnit4.ownTests narrow segment classDef directory className
        entries) := by
  cases directory with
  | none => exact Follows.ok fun test member => member
  | some directory =>
      apply (Follows.refl _).bindSame
      intro methods
      have each : Follows (List.Forall₂ fun more fewer =>
            ∀ test, fewer = some test → more = some test)
          (methods.mapM (JUnit4.markedTest? wide segment directory className
            entries))
          (methods.mapM (JUnit4.markedTest? narrow segment directory className
            entries)) :=
        Follows.mapM
          (fun method other (same : method = other) => same ▸
            within.markedTest? directory className entries method)
          (List.forall₂_refl methods)
      apply each.bind
      intro more fewer related
      apply Follows.ok
      intro test member
      simp at member ⊢
      obtain ⟨other, inMore, same⟩ :=
        exists_mem_of_forall₂ related.flip _ member
      exact same test rfl ▸ inMore

end Segment

structure FewerTests (more fewer : ClassSummary) : Prop where
  same : fewer = { more with tests := fewer.tests }
  within : ∀ test ∈ fewer.tests, test ∈ more.tests

theorem Summarizes.exists_narrow {definition : Definition} {more : ClassSummary}
    (summarizes : Summarizes wide definition more)
    (within : MarkersWithin narrow wide) :
    ∃ fewer, Summarizes narrow definition fewer ∧ FewerTests more fewer := by
  obtain ⟨directory, read, resolved, listed⟩ := summarizes.contents
  obtain ⟨tests, listedToo, subset⟩ :=
    within.ownTests _ directory _ _ more.tests listed
  refine ⟨{ more with tests := tests }, ?_, rfl, subset⟩
  exact { summarizes with
    contents := ⟨directory, read, resolved, listedToo⟩ }

section Tables

variable {definitions : List Definition} {more fewer : ClassTable}

/-- Both tables hold the classes of the same definitions, the one with more
markers and the other one with fewer. -/
structure Narrows (narrow wide : List String) (definitions : List Definition)
    (more fewer : ClassTable) : Prop where
  within : MarkersWithin narrow wide
  wideTable : Represents wide more definitions
  narrowTable : Represents narrow fewer definitions

private theorem Narrows.fewerTests
    (narrows : Narrows narrow wide definitions more fewer)
    {place : Fin more.size} {position : Fin fewer.size}
    {definition : Definition}
    (wideStands : StandsAt wide definitions more place definition)
    (narrowStands : StandsAt narrow definitions fewer position definition) :
    FewerTests (more.get place) (fewer.get position) := by
  obtain ⟨summary, summarizes, fewerTests⟩ :=
    wideStands.summarizes.exists_narrow narrows.within
  rw [narrowStands.summarizes.unique summarizes]
  exact fewerTests

private theorem Narrows.acyclic
    (narrows : Narrows narrow wide definitions more fewer)
    (acyclic : more.Acyclic) : fewer.Acyclic := by
  intro position cycle
  obtain ⟨definition, stands⟩ :=
    narrows.narrowTable.exists_definition position
  obtain ⟨place, wideStands⟩ := narrows.wideTable.exists_position stands.kept
  exact acyclic place
    ((narrows.wideTable.ancestor_iff wideStands wideStands).mpr
      ((narrows.narrowTable.ancestor_iff stands stands).mp cycle))

private theorem FewerTests.rehome {more fewer : ClassSummary}
    (fewerTests : FewerTests more fewer) (test : TestMethod) :
    rehome fewer test = rehome more test := by
  rw [fewerTests.same]
  rfl

/-- A complete test of a class is complete for it with more markers.  The
induction goes down from the ancestors, in both tables at once. -/
theorem Narrows.complete (narrows : Narrows narrow wide definitions more fewer)
    (wideAcyclic : more.Acyclic) (narrowAcyclic : fewer.Acyclic)
    (position : Fin fewer.size) :
    ∀ place definition,
      StandsAt wide definitions more place definition →
      StandsAt narrow definitions fewer position definition →
      ∀ test ∈ JUnit4.complete fewer narrowAcyclic position,
        test ∈ JUnit4.complete more wideAcyclic place := by
  induction position using narrowAcyclic.wellFounded.induction with
  | _ position ih =>
      intro place definition wideStands narrowStands test member
      have fewerTests := narrows.fewerTests wideStands narrowStands
      rcases own_or_rehomed_of_mem_complete narrowAcyclic member with
        own | ⟨parent, edge, moved, inherited, whole⟩
      · exact mem_complete_of_own wideAcyclic (fewerTests.within test own)
      · obtain ⟨above, parentStands⟩ :=
          narrows.narrowTable.exists_definition parent
        have keptParent := (parentStands.isParent_iff narrowStands).mp edge
        obtain ⟨widePlace, wideParentStands⟩ :=
          narrows.wideTable.exists_position keptParent.parentKept
        have wideEdge := (wideParentStands.isParent_iff wideStands).mpr
          keptParent
        rw [whole, fewerTests.rehome]
        exact rehome_mem_complete wideAcyclic wideEdge
          (ih parent edge widePlace above wideParentStands parentStands moved
            inherited)

private theorem Narrows.concreteTests
    (narrows : Narrows narrow wide definitions more fewer)
    (wideAcyclic : more.Acyclic) (narrowAcyclic : fewer.Acyclic) :
    ∀ test ∈ JUnit4.concreteTests fewer narrowAcyclic,
      test ∈ JUnit4.concreteTests more wideAcyclic := by
  intro test member
  obtain ⟨position, concrete, inComplete⟩ :=
    (mem_concreteTests_iff narrowAcyclic test).mp member
  obtain ⟨definition, stands⟩ :=
    narrows.narrowTable.exists_definition position
  obtain ⟨place, wideStands⟩ := narrows.wideTable.exists_position stands.kept
  refine (mem_concreteTests_iff wideAcyclic test).mpr ⟨place, ?_, ?_⟩
  · rw [wideStands.summarizes.isConcrete, ← stands.summarizes.isConcrete]
    exact concrete
  · exact narrows.complete wideAcyclic narrowAcyclic position place definition
      wideStands stands test inComplete

end Tables

/-! ### Whole packages -/

private theorem MarkersWithin.findTests (within : MarkersWithin narrow wide)
    (segments : List IndexedSegment) :
    Follows (fun more fewer => ∀ test ∈ fewer, test ∈ more)
      (JUnit4.findTests wide segments) (JUnit4.findTests narrow segments) := by
  intro tests found
  obtain ⟨survey, surveyed, acyclic, rfl⟩ :=
    (findTests_eq_ok_iff segments tests).mp found
  have represents := Survey.represents_of_ofSegments surveyed
  rcases Survey.ofSegments_cases narrow segments with
    ⟨other, otherSurveyed, otherRepresents⟩ | ⟨_, error, _, definition, member,
      failed⟩
  · have narrows : Narrows narrow wide (classDefinitions segments)
        survey.table other.table :=
      { within := within
        wideTable := represents
        narrowTable := otherRepresents }
    have otherAcyclic := narrows.acyclic acyclic
    exact ⟨_, (findTests_eq_ok_iff segments _).mpr
      ⟨other, otherSurveyed, otherAcyclic, rfl⟩,
      narrows.concreteTests acyclic otherAcyclic⟩
  · -- What cannot be summarized with fewer markers cannot be with more.
    obtain ⟨more, summarizes⟩ := represents.readable definition member
    obtain ⟨fewer, summarizesToo, _⟩ := summarizes.exists_narrow within
    have read := (summarize_eq_ok_iff definition fewer).mpr summarizesToo
    rw [failed] at read
    cases read

private theorem discover_congr
    (same : JUnit4.isMarker narrow = JUnit4.isMarker wide)
    (segments : List IndexedSegment) :
    discover narrow segments = discover wide segments := by
  have sameTest (segment : IndexedSegment) :
      JUnit4.markedTest? narrow segment = JUnit4.markedTest? wide segment := by
    funext directory className entries method
    unfold JUnit4.markedTest?
    rw [same]
  have sameSummary : summarize narrow = summarize wide := by
    funext definition
    unfold summarize summaryOf JUnit4.ownTests markedTests
    simp only [sameTest]
  have sameSurvey (definitions : List Definition) :
      ∀ survey : Survey, survey.extend narrow definitions =
        survey.extend wide definitions := by
    induction definitions with
    | nil =>
        intro survey
        rfl
    | cons definition rest ih =>
        intro survey
        rw [Survey.extend, Survey.extend, sameSummary]
        cases summarize wide definition with
        | error error => rfl
        | ok summary => exact ih _
  unfold discover Survey.ofSegments
  rw [sameSurvey]

end JUnit4

namespace Discovery

open JUnit4

/-- With fewer markers discovery succeeds if it does with more, each test it
finds is found with more, and the names are some of those found with more, in
the same order.  Markers that differ only in order, in repeats, in the empty
name and in the marker of every package make no difference at all, not even in
what goes wrong. -/
theorem ofSegments_markers (segments : List IndexedSegment)
    (narrow wide : List String) :
    (MarkersWithin narrow wide →
      ∀ more, (ofSegments wide segments).tests = .ok more →
        ∃ fewer, (ofSegments narrow segments).tests = .ok fewer ∧
          (∀ test ∈ fewer, test ∈ more) ∧
          (TestMethod.names fewer).Sublist (TestMethod.names more)) ∧
    ((∀ name, name ≠ "" → name ≠ testMarker →
        (name ∈ narrow ↔ name ∈ wide)) →
      ofSegments narrow segments = ofSegments wide segments) := by
  constructor
  · intro within
    have follows : Follows (fun more fewer =>
          (∀ test ∈ fewer, test ∈ more) ∧
          (TestMethod.names fewer).Sublist (TestMethod.names more))
        (ofSegments wide segments).tests
        (ofSegments narrow segments).tests := by
      rw [tests_ofSegments, tests_ofSegments]
      apply (Follows.refl _).bindSame
      intro junit3
      apply (within.findTests segments).bind
      intro more fewer subset
      have mergedSubset : ∀ test ∈ merged junit3 fewer,
          test ∈ merged junit3 more := by
        intro test member
        have listed := (TestMethod.sortedByName_perm _).mem_iff.mp member
        apply (TestMethod.sortedByName_perm _).mem_iff.mpr
        rcases List.mem_append.mp listed with byName | annotated
        · exact List.mem_append_left more byName
        · exact List.mem_append_right junit3 (subset test annotated)
      exact Follows.ok ⟨mergedSubset,
        (TestMethod.sortedByName_sorted _).names_sublist
          (TestMethod.sortedByName_sorted _) mergedSubset⟩
    exact follows
  · intro same
    unfold ofSegments
    rw [discover_congr (isMarker_congr same)]

/-- Without `M` the class `P` and its subclasses keep their JUnit3 tests, and
the other spellings of `M` alone change nothing. -/
theorem overridingPart_markers : ∃ more fewer,
    (ofSegments ["M"] [overridingPart]).tests = .ok more ∧
    (ofSegments ["", "org.junit.Test"] [overridingPart]).tests = .ok fewer ∧
    (∀ test ∈ fewer, test ∈ more) ∧
    (TestMethod.names fewer).Sublist (TestMethod.names more) ∧
    ofSegments ["M", "", "org.junit.Test", "M"] [overridingPart] =
      ofSegments ["M"] [overridingPart] := by
  obtain ⟨more, found, _⟩ := overriding_found
  have within : MarkersWithin ["", "org.junit.Test"] ["M"] := by
    intro name member nonempty
    rcases List.mem_pair.mp member with isEmpty | always
    · exact (nonempty isEmpty).elim
    · exact Or.inr always
  have same : ∀ name, name ≠ "" → name ≠ testMarker →
      (name ∈ ["M", "", "org.junit.Test", "M"] ↔ name ∈ ["M"]) := by
    intro name nonempty notAlways
    have notSpelled : name ≠ "org.junit.Test" := notAlways
    simp [nonempty, notSpelled]
  obtain ⟨fewer, foundToo, subset, sublist⟩ :=
    (ofSegments_markers [overridingPart] _ _).1 within more found
  exact ⟨more, fewer, found, foundToo, subset, sublist,
    (ofSegments_markers [overridingPart] _ _).2 same⟩

end Discovery
end DexCensus
