/-
All tests of a package.

The JUnit3 tests and then the JUnit4 tests are put in ascending order of their
names; tests of the same name keep their order.
-/

import DexCensus.JUnit3
import DexCensus.JUnit4.Discovery

namespace DexCensus
namespace Discovery

open Dex JUnit4

def merged (junit3 junit4 : List TestMethod) : List TestMethod :=
  TestMethod.sortedByName (junit3 ++ junit4)

/-- What is found in some segments.  JUnit4 tests are looked for only if the
search for JUnit3 tests succeeds. -/
def ofSegments (markers : List String) (segments : List IndexedSegment) :
    Findings :=
  match JUnit3.findTests segments with
  | .error error => { redefinitions := [], tests := .error error }
  | .ok junit3 =>
      let junit4 := JUnit4.discover markers segments
      { junit4 with tests := junit4.tests.map (merged junit3) }

def ofBuffers (markers : List String) (buffers : List Bytes) : Findings :=
  match parseSegments buffers with
  | .error error => { redefinitions := [], tests := .error error }
  | .ok segments => ofSegments markers segments

def findMethods (markers : List String) (buffers : List Bytes) :
    Except DexError (List TestMethod) :=
  (ofBuffers markers buffers).tests

/-- The names of the tests in the segments that some buffers hold, each one
once and in ascending order. -/
def findNames (markers : List String) (buffers : List Bytes) :
    Except DexError (List String) :=
  (findMethods markers buffers).map TestMethod.names

end Discovery
end DexCensus
