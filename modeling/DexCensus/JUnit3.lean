/-
JUnit3 tests: methods of subclasses of the test case classes, by name.

A class is a test class if its superclass is a known base; the test case
classes of the platform are known from the start, and every test class becomes
a base itself.  Since a subclass may be defined before its superclass, the
definitions that are still waiting are scanned again until a scan finds no new
base.  Every scan that finds one leaves fewer definitions waiting, so the
search ends.
-/

import DexCensus.Definition
import DexCensus.OrderedSet

namespace DexCensus
namespace JUnit3

open Dex

/-- The test case classes of the platform.  A package refers to them without
defining them. -/
def platformBases : List String :=
  [ "Ljunit/framework/TestCase;",
    "Landroid/test/ActivityInstrumentationTestCase;",
    "Landroid/test/ActivityInstrumentationTestCase2;",
    "Landroid/test/ActivityTestCase;",
    "Landroid/test/ActivityUnitTestCase;",
    "Landroid/test/AndroidTestCase;",
    "Landroid/test/ApplicationTestCase;",
    "Landroid/test/FailedToCreateTests;",
    "Landroid/test/InstrumentationTestCase;",
    "Landroid/test/LoaderTestCase;",
    "Landroid/test/ProviderTestCase;",
    "Landroid/test/ProviderTestCase2;",
    "Landroid/test/ServiceTestCase;",
    "Landroid/test/SingleLaunchActivityTestCase;",
    "Landroid/test/SyncBaseInstrumentation;" ]

def testStart : String :=
  "test"

def placeholderName : String :=
  "testFoo"

def isTestName (name : String) : Bool :=
  testStart.toList.isPrefixOf name.toList && name != placeholderName

def testsOf (definition : Definition) : Except Fault (List TestMethod) := do
  let className ← definition.segment.className definition.classDef.classType
  let methods ← definition.segment.virtualMethodIndices definition.classDef
  let names ← methods.mapM definition.segment.methodName
  return (names.filter isTestName).map fun name =>
    { testName := TestName.ofParts className name, annotations := [] }

/-! ### Scanning -/

/-- What a search knows: the descriptors of the bases, the tests in the order
they were found, and how many scans were started. -/
structure Search where
  bases : Std.HashSet String
  tests : OrderedSet TestMethod
  scans : Nat

def Search.initial : Search :=
  { bases := Std.HashSet.ofList platformBases
    tests := OrderedSet.empty
    scans := 0 }

/-- A scan in progress: the definitions passed over so far, the last one
first, and how many bases the scan has found. -/
structure Scan where
  search : Search
  waiting : List Definition
  found : Nat

namespace Scan

def start (search : Search) : Scan :=
  { search := { search with scans := search.scans + 1 }
    waiting := []
    found := 0 }

def pass (scan : Scan) (definition : Definition) : Scan :=
  { scan with waiting := definition :: scan.waiting }

/-- The definition is a test class.  Its descriptor becomes a base, which
counts only if it was none before. -/
def admitClass (scan : Scan) (descriptor : String)
    (tests : List TestMethod) : Scan :=
  let (known, bases) := scan.search.bases.containsThenInsert descriptor
  { search :=
      { bases := bases
        tests := scan.search.tests.insertAll tests
        scans := scan.search.scans }
    waiting := scan.waiting
    found := if known then scan.found else scan.found + 1 }

@[simp] theorem start_waiting (search : Search) :
    (start search).waiting = [] :=
  rfl

@[simp] theorem start_found (search : Search) : (start search).found = 0 :=
  rfl

@[simp] theorem start_bases (search : Search) :
    (start search).search.bases = search.bases :=
  rfl

@[simp] theorem start_tests (search : Search) :
    (start search).search.tests = search.tests :=
  rfl

@[simp] theorem pass_search (scan : Scan) (definition : Definition) :
    (scan.pass definition).search = scan.search :=
  rfl

@[simp] theorem pass_waiting (scan : Scan) (definition : Definition) :
    (scan.pass definition).waiting = definition :: scan.waiting :=
  rfl

@[simp] theorem pass_found (scan : Scan) (definition : Definition) :
    (scan.pass definition).found = scan.found :=
  rfl

@[simp] theorem admitClass_waiting (scan : Scan) (descriptor : String)
    (tests : List TestMethod) :
    (scan.admitClass descriptor tests).waiting = scan.waiting :=
  rfl

@[simp] theorem admitClass_tests (scan : Scan) (descriptor : String)
    (tests : List TestMethod) :
    (scan.admitClass descriptor tests).search.tests =
      scan.search.tests.insertAll tests :=
  rfl

theorem admitClass_found_le (scan : Scan) (descriptor : String)
    (tests : List TestMethod) :
    (scan.admitClass descriptor tests).found ≤ scan.found + 1 := by
  simp only [admitClass]
  split <;> omega

/-- One more definition scanned.  Descriptors that cannot be read are told
without a place, what cannot be read inside a test class with both places. -/
def examine (scan : Scan) (definition : Definition) : Except DexError Scan :=
  match definition.segment.superclassDescriptor? definition.classDef with
  | .error fault => .error (.bare fault)
  | .ok none => .ok (scan.pass definition)
  | .ok (some superclass) =>
      if superclass ∈ scan.search.bases then
        match definition.segment.classDescriptor definition.classDef with
        | .error fault => .error (.bare fault)
        | .ok descriptor =>
            match testsOf definition with
            | .error fault => .error (definition.faultInClass descriptor fault)
            | .ok tests => .ok (scan.admitClass descriptor tests)
      else .ok (scan.pass definition)

theorem examine_count {scan next : Scan} {definition : Definition}
    (examined : scan.examine definition = .ok next) :
    next.waiting.length + next.found ≤
      scan.waiting.length + scan.found + 1 := by
  unfold examine at examined
  split at examined
  · cases examined
  · cases examined
    simp [Nat.add_right_comm]
  · split at examined
    · split at examined
      · cases examined
      · rename_i descriptor _
        split at examined
        · cases examined
        · rename_i tests _
          cases examined
          have few := scan.admitClass_found_le descriptor tests
          rw [admitClass_waiting]
          omega
    · cases examined
      simp [Nat.add_right_comm]

theorem foldlM_examine_count (definitions : List Definition)
    {scan next : Scan} (examined : definitions.foldlM examine scan = .ok next) :
    next.waiting.length + next.found ≤
      scan.waiting.length + scan.found + definitions.length := by
  induction definitions generalizing scan with
  | nil =>
      cases examined
      simp
  | cons definition rest ih =>
      rw [List.foldlM_cons] at examined
      cases first : scan.examine definition with
      | error fault =>
          rw [first] at examined
          cases examined
      | ok middle =>
          rw [first] at examined
          have later := ih examined
          have here := examine_count first
          simp only [List.length_cons]
          omega

end Scan

namespace Search

def scan (search : Search) (waiting : List Definition) :
    Except DexError Scan :=
  waiting.foldlM Scan.examine (Scan.start search)

def complete (search : Search) (waiting : List Definition) :
    Except DexError Search :=
  match _ : search.scan waiting with
  | .error error => .error error
  | .ok result =>
      if _ : result.found = 0 then .ok result.search
      else result.search.complete result.waiting.reverse
termination_by waiting.length
decreasing_by
  rename_i scanned unsettled
  have bound := Scan.foldlM_examine_count waiting scanned
  simp only [Scan.start_waiting, Scan.start_found, List.length_nil,
    List.length_reverse] at bound ⊢
  omega

end Search

def findTests (segments : List IndexedSegment) :
    Except DexError (List TestMethod) := do
  let search ← Search.initial.complete (Definition.ofSegments segments)
  return search.tests.toList

end JUnit3
end DexCensus
