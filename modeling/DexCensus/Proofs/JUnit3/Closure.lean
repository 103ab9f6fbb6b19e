/-
JUnit3 discovery as a least fixed point.

The search admits definitions one at a time.  The definitions admitted so far
are not part of its state, so the invariant carries them beside it.  When a
scan finds no new base, no definition that is still waiting has a base for its
superclass, and so everything in the least set has been admitted.
-/

import DexCensus.Proofs.JUnit3.Search
import DexCensus.Proofs.JUnit3.TestClass
import DexCensus.Proofs.OrderedSet

namespace DexCensus
namespace JUnit3

open Dex

variable {all admitted rest : List Definition} {scan : Scan}
  {definition : Definition}

/-- What holds between two definitions of a scan that still has `rest` before
it, when the definitions in `admitted` were admitted. -/
structure Explores (all admitted : List Definition) (scan : Scan)
    (rest : List Definition) : Prop where
  within : ∀ definition ∈ scan.waiting ++ rest, definition ∈ all
  covers : ∀ definition ∈ all,
    definition ∈ admitted ∨ definition ∈ scan.waiting ++ rest
  sound : ∀ definition ∈ admitted, TestClass all definition
  unbroken : ∀ definition ∈ admitted, ¬ Broken definition
  passed : ∀ definition ∈ scan.waiting, ∃ superclass,
    definition.segment.superclassDescriptor? definition.classDef =
      .ok superclass
  bases : ∀ descriptor, descriptor ∈ scan.search.bases ↔
    descriptor ∈ platformBases ∨
      ∃ definition ∈ admitted, HasDescriptor definition descriptor
  tests : ∀ test, test ∈ scan.search.tests.toList ↔
    test.annotations = [] ∧
      ∃ definition ∈ admitted, HasTest definition test.testName
  /-- As long as a scan finds no new base, what it passed over has none. -/
  settled : scan.found = 0 → ∀ definition ∈ scan.waiting, ∀ superclass,
    HasSuperclass definition superclass → superclass ∉ scan.search.bases

theorem explores_initial (all : List Definition) :
    Explores all [] (Scan.start Search.initial) all := by
  constructor
  case within => simp
  case covers => simp
  case sound => simp
  case unbroken => simp
  case passed => simp
  case bases => simp [Search.initial]
  case tests => simp [Search.initial]
  case settled => simp

private theorem Explores.pass
    (explores : Explores all admitted scan (definition :: rest))
    {superclass : Option String}
    (readable :
      definition.segment.superclassDescriptor? definition.classDef =
        .ok superclass)
    (noBase : ∀ base, superclass = some base → base ∉ scan.search.bases) :
    Explores all admitted (scan.pass definition) rest := by
  have sameMembers (other : Definition) :
      other ∈ (scan.pass definition).waiting ++ rest ↔
        other ∈ scan.waiting ++ definition :: rest :=
    List.perm_middle.symm.mem_iff
  constructor
  case within =>
    intro other member
    exact explores.within other ((sameMembers other).mp member)
  case covers =>
    intro other member
    rcases explores.covers other member with old | left
    · exact Or.inl old
    · exact Or.inr ((sameMembers other).mpr left)
  case sound => exact explores.sound
  case unbroken => exact explores.unbroken
  case passed =>
    intro other member
    rcases List.mem_cons.mp member with here | old
    · subst here
      exact ⟨superclass, readable⟩
    · exact explores.passed other old
  case bases => exact explores.bases
  case tests => exact explores.tests
  case settled =>
    intro noneFound other member base known
    rcases List.mem_cons.mp member with here | old
    · subst here
      unfold HasSuperclass at known
      rw [readable] at known
      cases known
      exact noBase base rfl
    · exact explores.settled noneFound other old base known

theorem Explores.next_mem
    (explores : Explores all admitted scan (definition :: rest)) :
    definition ∈ all :=
  explores.within definition (List.mem_append_right _ List.mem_cons_self)

theorem Explores.testClass
    (explores : Explores all admitted scan (definition :: rest))
    {superclass : String} (known : HasSuperclass definition superclass)
    (isBase : superclass ∈ scan.search.bases) : TestClass all definition := by
  rcases (explores.bases superclass).mp isBase with ofPlatform | ofClass
  · exact TestClass.seed explores.next_mem known ofPlatform
  · obtain ⟨base, member, named⟩ := ofClass
    exact TestClass.step explores.next_mem known (explores.sound base member)
      named

private theorem Explores.admit
    (explores : Explores all admitted scan (definition :: rest))
    {superclass descriptor : String} {tests : List TestMethod}
    (known : HasSuperclass definition superclass)
    (isBase : superclass ∈ scan.search.bases)
    (described : HasDescriptor definition descriptor)
    (found : testsOf definition = .ok tests) :
    Explores all (definition :: admitted)
      (scan.admitClass descriptor tests) rest := by
  constructor
  case within =>
    intro other member
    exact explores.within other
      (List.perm_middle.mem_iff.mpr (List.mem_cons_of_mem definition member))
  case covers =>
    intro other member
    rcases explores.covers other member with old | left
    · exact Or.inl (List.mem_cons_of_mem definition old)
    · rcases List.mem_cons.mp (List.perm_middle.mem_iff.mp left) with
        here | stays
      · rw [here]
        exact Or.inl List.mem_cons_self
      · exact Or.inr stays
  case sound =>
    intro other member
    rcases List.mem_cons.mp member with here | old
    · rw [here]
      exact explores.testClass known isBase
    · exact explores.sound other old
  case unbroken =>
    intro other member
    rcases List.mem_cons.mp member with here | old
    · rw [here]
      exact not_broken found
    · exact explores.unbroken other old
  case passed => exact explores.passed
  case bases =>
    intro other
    rw [mem_admitClass_bases, explores.bases, List.exists_mem_cons_iff,
      or_assoc]
    have ofDefinition : other = descriptor ↔
        HasDescriptor definition other := by
      constructor
      · intro same
        rw [same]
        exact described
      · intro named
        exact named.unique described
    rw [ofDefinition, or_comm (a := HasDescriptor definition other)]
  case tests =>
    intro test
    have merged : (scan.admitClass descriptor tests).search.tests =
        scan.search.tests.insertAll tests := rfl
    rw [merged, OrderedSet.mem_toList_insertAll, explores.tests,
      mem_testsOf found, List.exists_mem_cons_iff, and_or_left,
      or_comm (a := test.annotations = [] ∧ HasTest definition _)]
  case settled =>
    intro noneFound other member base otherKnown inBases
    obtain ⟨oldNone, oldBase⟩ := admitClass_found_eq_zero noneFound
    apply explores.settled oldNone other member base otherKnown
    rcases (mem_admitClass_bases scan descriptor tests base).mp inBases with
      old | same
    · exact old
    · rw [same]
      exact oldBase

/-! ### Steps, scans and the whole search -/

private theorem examine_cases
    (explores : Explores all admitted scan (definition :: rest)) :
    (∃ next, scan.examine definition = .ok next ∧
      ∃ grown, Explores all grown next rest) ∨
    (∃ error, scan.examine definition = .error error ∧
      StopsAt all definition error) := by
  unfold Scan.examine
  cases known :
      definition.segment.superclassDescriptor? definition.classDef with
  | error fault =>
      exact Or.inr ⟨_, rfl, .superclass explores.next_mem known⟩
  | ok superclass? =>
      cases superclass? with
      | none =>
          refine Or.inl ⟨_, rfl, admitted, explores.pass known ?_⟩
          intro base impossible
          cases impossible
      | some superclass =>
          by_cases isBase : superclass ∈ scan.search.bases
          · simp only [if_pos isBase]
            have testClass := explores.testClass known isBase
            cases described :
                definition.segment.classDescriptor definition.classDef with
            | error fault =>
                exact Or.inr ⟨_, rfl, .descriptor testClass described⟩
            | ok descriptor =>
                cases found : testsOf definition with
                | error fault =>
                    exact Or.inr ⟨_, rfl, .tests testClass described found⟩
                | ok tests =>
                    exact Or.inl ⟨_, rfl, definition :: admitted,
                      explores.admit known isBase described found⟩
          · simp only [if_neg isBase]
            refine Or.inl ⟨_, rfl, admitted, explores.pass known ?_⟩
            intro base same
            cases same
            exact isBase

private theorem foldlM_cases (explores : Explores all admitted scan rest) :
    (∃ last, rest.foldlM Scan.examine scan = .ok last ∧
      ∃ grown, Explores all grown last []) ∨
    (∃ error, rest.foldlM Scan.examine scan = .error error ∧
      ∃ stopped, StopsAt all stopped error) := by
  induction rest generalizing scan admitted with
  | nil => exact Or.inl ⟨scan, rfl, admitted, explores⟩
  | cons definition rest ih =>
      rw [List.foldlM_cons]
      rcases examine_cases explores with ⟨next, examined, grown, goesOn⟩ |
        ⟨error, examined, stops⟩
      · rw [examined]
        exact ih goesOn
      · rw [examined]
        exact Or.inr ⟨error, rfl, definition, stops⟩

private theorem Explores.restart (explores : Explores all admitted scan []) :
    Explores all admitted (Scan.start scan.search) scan.waiting.reverse := by
  have sameMembers (other : Definition) :
      other ∈ (Scan.start scan.search).waiting ++ scan.waiting.reverse ↔
        other ∈ scan.waiting ++ [] := by
    simp
  constructor
  case within =>
    intro other member
    exact explores.within other ((sameMembers other).mp member)
  case covers =>
    intro other member
    rcases explores.covers other member with old | left
    · exact Or.inl old
    · exact Or.inr ((sameMembers other).mpr left)
  case sound => exact explores.sound
  case unbroken => exact explores.unbroken
  case passed => simp
  case bases => exact explores.bases
  case tests => exact explores.tests
  case settled => simp

theorem complete_cases (search : Search) (waiting : List Definition) :
    ∀ admitted, Explores all admitted (Scan.start search) waiting →
      (∃ last, search.complete waiting = .ok last.search ∧
        last.found = 0 ∧ ∃ grown, Explores all grown last []) ∨
      (∃ error, search.complete waiting = .error error ∧
        ∃ stopped, StopsAt all stopped error) := by
  induction search, waiting using Search.complete.induct with
  | case1 search waiting error failed =>
      intro admitted explores
      rcases foldlM_cases explores with ⟨last, scanned, _⟩ |
        ⟨other, stopped, stops⟩
      · rw [Search.scan, scanned] at failed
        cases failed
      · rw [Search.scan, stopped] at failed
        cases failed
        exact Or.inr ⟨error, Search.complete_of_error stopped, stops⟩
  | case2 search waiting result scanned settled =>
      intro admitted explores
      rcases foldlM_cases explores with ⟨last, ran, grown, ends⟩ |
        ⟨error, failed, _⟩
      · have same : result = last := Except.ok.inj (scanned.symm.trans ran)
        subst same
        exact Or.inl ⟨result, Search.complete_of_settled scanned settled,
          settled, grown, ends⟩
      · rw [Search.scan, failed] at scanned
        cases scanned
  | case3 search waiting result scanned unsettled ih =>
      intro admitted explores
      rcases foldlM_cases explores with ⟨last, ran, grown, ends⟩ |
        ⟨error, failed, _⟩
      · have same : result = last := Except.ok.inj (scanned.symm.trans ran)
        subst same
        rw [Search.complete_of_progress scanned unsettled]
        exact ih grown ends.restart
      · rw [Search.scan, failed] at scanned
        cases scanned

private theorem complete_explores (search : Search) (waiting : List Definition)
    (admitted : List Definition)
    (explores : Explores all admitted (Scan.start search) waiting) :
    (∃ last, search.complete waiting = .ok last.search ∧
      last.found = 0 ∧ ∃ grown, Explores all grown last []) ∨
    ((∃ error, search.complete waiting = .error error) ∧
      Unreadable all) := by
  rcases complete_cases search waiting admitted explores with ended |
    ⟨error, failed, definition, stops⟩
  · exact Or.inl ended
  · exact Or.inr ⟨⟨error, failed⟩, stops.unreadable⟩

/-- At the end, the definitions that were admitted are the test classes. -/
theorem Explores.complete (explores : Explores all admitted scan [])
    (noneFound : scan.found = 0) (member : TestClass all definition) :
    definition ∈ admitted := by
  have waitingHasNone (other : Definition) (inAll : other ∈ all)
      (superclass : String) (known : HasSuperclass other superclass)
      (isBase : superclass ∈ scan.search.bases) : other ∈ admitted := by
    rcases explores.covers other inAll with done | left
    · exact done
    · rw [List.append_nil] at left
      exact (explores.settled noneFound other left superclass known
        isBase).elim
  induction member with
  | seed inAll known ofPlatform =>
      apply waitingHasNone _ inAll _ known
      exact (explores.bases _).mpr (Or.inl ofPlatform)
  | step inAll known base named ih =>
      apply waitingHasNone _ inAll _ known
      exact (explores.bases _).mpr (Or.inr ⟨_, ih, named⟩)

theorem Explores.readable (explores : Explores all admitted scan [])
    (noneFound : scan.found = 0) : ¬ Unreadable all := by
  intro unreadable
  rcases unreadable with ⟨definition, inAll, fault, failed⟩ |
    ⟨definition, member, broken⟩
  · rcases explores.covers definition inAll with done | left
    · obtain ⟨superclass, known⟩ :=
        (explores.sound definition done).hasSuperclass
      unfold HasSuperclass at known
      rw [failed] at known
      cases known
    · rw [List.append_nil] at left
      obtain ⟨superclass, known⟩ := explores.passed definition left
      rw [failed] at known
      cases known
  · exact explores.unbroken definition (explores.complete noneFound member) broken

private theorem Explores.mem_tests_iff
    (explores : Explores all admitted scan [])
    (noneFound : scan.found = 0) (test : TestMethod) :
    test ∈ scan.search.tests.toList ↔
      test.annotations = [] ∧ DefinesTest all test.testName := by
  rw [explores.tests]
  constructor
  · intro ⟨bare, definition, inAdmitted, hasTest⟩
    exact ⟨bare, definition, explores.sound definition inAdmitted, hasTest⟩
  · intro ⟨bare, definition, member, hasTest⟩
    exact ⟨bare, definition, explores.complete noneFound member, hasTest⟩

/-- Discovery by name is exactly the least fixed point over the definitions of
all segments: a successful search lists each test of each test class once,
without annotations, and a search fails exactly if a superclass or something in
a test class cannot be read. -/
theorem findTests_exact (segments : List IndexedSegment) :
    (∀ definition, definition ∈ Definition.ofSegments segments ↔
      ∃ index, definition.segmentNumber = 1 + index ∧
        segments[index]? = some definition.segment ∧
        definition.classDef ∈ definition.segment.classDefs.toList) ∧
    (∀ tests, findTests segments = .ok tests →
      tests.Nodup ∧
      ∀ test, test ∈ tests ↔ test.annotations = [] ∧
        ∃ definition, TestClass (Definition.ofSegments segments) definition ∧
          HasTest definition test.testName) ∧
    ((∃ error, findTests segments = .error error) ↔
      Unreadable (Definition.ofSegments segments)) := by
  refine ⟨fun _ => Definition.mem_ofSegmentsFrom_iff, ?_⟩
  unfold findTests
  rcases complete_explores Search.initial (Definition.ofSegments segments) []
    (explores_initial _) with ⟨last, found, noneFound, admitted, explores⟩ |
      ⟨⟨error, failed⟩, unreadable⟩
  · rw [found]
    constructor
    · intro tests same
      cases same
      refine ⟨OrderedSet.nodup_toList _, ?_⟩
      intro test
      rw [explores.tests]
      constructor
      · intro ⟨bare, definition, member, hasTest⟩
        exact ⟨bare, definition, explores.sound definition member, hasTest⟩
      · intro ⟨bare, definition, member, hasTest⟩
        exact ⟨bare, definition, explores.complete noneFound member, hasTest⟩
    · constructor
      · intro ⟨error, impossible⟩
        cases impossible
      · intro unreadable
        exact (explores.readable noneFound unreadable).elim
  · rw [failed]
    constructor
    · intro tests impossible
      cases impossible
    · constructor
      · intro _
        exact unreadable
      · intro _
        exact ⟨error, rfl⟩

/-- A search that succeeds has read everything and lists each test of each
test class once.  One that fails has stopped at a definition. -/
theorem findTests_cases (segments : List IndexedSegment) :
    (∃ tests, findTests segments = .ok tests ∧
      ¬ Unreadable (Definition.ofSegments segments) ∧
      tests.Nodup ∧ ∀ test, test ∈ tests ↔ test.annotations = [] ∧
        DefinesTest (Definition.ofSegments segments) test.testName) ∨
    (∃ error, findTests segments = .error error ∧
      ∃ stopped,
        StopsAt (Definition.ofSegments segments) stopped error) := by
  unfold findTests
  rcases complete_cases Search.initial (Definition.ofSegments segments) []
    (explores_initial _) with ⟨last, ended, noneFound, _, explores⟩ |
      ⟨error, failed, stops⟩
  · rw [ended]
    exact Or.inl ⟨_, rfl, explores.readable noneFound,
      OrderedSet.nodup_toList _, explores.mem_tests_iff noneFound⟩
  · rw [failed]
    exact Or.inr ⟨error, rfl, stops⟩

theorem findTests_of_readable {segments : List IndexedSegment}
    (readable : ¬ Unreadable (Definition.ofSegments segments)) :
    ∃ tests, findTests segments = .ok tests := by
  rcases findTests_cases segments with ⟨tests, found, _⟩ |
    ⟨_, _, _, stops⟩
  · exact ⟨tests, found⟩
  · exact (readable stops.unreadable).elim

theorem mem_findTests_iff {segments : List IndexedSegment}
    {tests : List TestMethod} (found : findTests segments = .ok tests) :
    tests.Nodup ∧ ∀ test, test ∈ tests ↔ test.annotations = [] ∧
      DefinesTest (Definition.ofSegments segments) test.testName := by
  rcases findTests_cases segments with ⟨other, listed, _, once, mem_iff⟩ |
    ⟨error, failed, _⟩
  · rw [listed] at found
    cases found
    exact ⟨once, mem_iff⟩
  · rw [failed] at found
    cases found

theorem findTests_stops {segments : List IndexedSegment} {error : DexError}
    (failed : findTests segments = .error error) :
    ∃ stopped, StopsAt (Definition.ofSegments segments) stopped error := by
  rcases findTests_cases segments with ⟨tests, found, _⟩ |
    ⟨other, ended, stops⟩
  · rw [found] at failed
    cases failed
  · rw [ended] at failed
    cases failed
    exact stops

end JUnit3
end DexCensus
