/-
JUnit4 tests: methods that carry a marker annotation, and those that classes
inherit.

Discovery first surveys all classes that are not interfaces and then completes
the tests of each one.  Redefinitions noted on the way are told whether or not
discovery succeeds.
-/

import DexCensus.JUnit4.Hierarchy

namespace DexCensus
namespace JUnit4

open Dex

def testsOfSurvey (survey : Survey) : Except DexError (List TestMethod) :=
  match harvest survey.table with
  | .error fault => .error (.bare fault)
  | .ok tests => .ok tests

/-- What discovery tells: the redefinitions it met, and the tests in the order
they are found or the error. -/
structure Findings where
  redefinitions : List Redefinition
  tests : Except DexError (List TestMethod)

/-- The tests of all segments.  `markers` are the names of annotations that
mark tests beside the one that always does. -/
def discover (markers : List String) (segments : List IndexedSegment) :
    Findings :=
  match Survey.ofSegments markers segments with
  | (survey, some error) =>
      { redefinitions := survey.redefinitions.toList, tests := .error error }
  | (survey, none) =>
      { redefinitions := survey.redefinitions.toList
        tests := testsOfSurvey survey }

def findTests (markers : List String) (segments : List IndexedSegment) :
    Except DexError (List TestMethod) :=
  (discover markers segments).tests

end JUnit4
end DexCensus
