/-
What JUnit4 discovery learns about one class.

A virtual method is a test if it has a pair in the directory of its class and
if some annotation of the class or of the method is a marker.  Its annotations
are those of the class, then those of the method.

The class data of a class without a directory are not looked at.
-/

import DexCensus.Definition
import DexCensus.OrderedSet

namespace DexCensus
namespace JUnit4

open Dex

/-- The annotation that marks tests in every package. -/
def testMarker : String :=
  "org.junit.Test"

/-- Whether an annotation name marks tests: the one that always does, or one
of the names given.  An empty name marks nothing. -/
def isMarker (markers : List String) (name : String) : Bool :=
  name == testMarker || (name != "" && markers.contains name)

structure ClassSummary where
  name : String
  segmentNumber : Nat
  classType : UInt32
  superclassName : Option String
  annotations : List TestAnnotation
  tests : List TestMethod
  isConcrete : Bool

def superclassName? (segment : Segment) (classDef : ClassDef) :
    Except Fault (Option String) := do
  match ← segment.superclassDescriptor? classDef with
  | none => return none
  | some descriptor =>
      let name ← Descriptor.className descriptor
      return some name

def markedTest? (markers : List String) (segment : IndexedSegment)
    (directory : Directory) (className : String)
    (classAnnotations : List TestAnnotation) (method : UInt32) :
    Except Fault (Option TestMethod) :=
  if directory.hasMethod method then do
    let own ← segment.methodAnnotations method (some directory)
    let annotations := classAnnotations ++ own
    if annotations.any fun entry => isMarker markers entry.name then
      let name ← segment.methodName method
      return some {
        testName := TestName.ofParts className name
        annotations := annotations }
    else return none
  else .ok none

/-- The tests among some virtual methods, in order and each one once. -/
def markedTests (markers : List String) (segment : IndexedSegment)
    (directory : Directory) (className : String)
    (classAnnotations : List TestAnnotation) (methods : List UInt32) :
    Except Fault (List TestMethod) := do
  let found ← methods.mapM
    (markedTest? markers segment directory className classAnnotations)
  return appendNew [] (found.filterMap id)

def ownTests (markers : List String) (segment : IndexedSegment)
    (classDef : ClassDef) (directory : Option Directory) (className : String)
    (classAnnotations : List TestAnnotation) :
    Except Fault (List TestMethod) :=
  match directory with
  | none => .ok []
  | some directory => do
      let methods ← segment.virtualMethodIndices classDef
      markedTests markers segment directory className classAnnotations methods

def summaryOf (markers : List String) (definition : Definition)
    (descriptor : String) : Except Fault ClassSummary := do
  let segment := definition.segment
  let classDef := definition.classDef
  let name ← Descriptor.className descriptor
  let superclassName ← superclassName? segment.toSegment classDef
  let directory ← segment.directory? classDef
  let annotations ← segment.classAnnotations directory
  let tests ← ownTests markers segment classDef directory name annotations
  return {
    name := name
    segmentNumber := definition.segmentNumber
    classType := classDef.classType
    superclassName := superclassName
    annotations := annotations
    tests := tests
    isConcrete := classDef.isConcrete }

/-- The summary of a class.  An error names the segment, and the class too
once its descriptor is known. -/
def summarize (markers : List String) (definition : Definition) :
    Except DexError ClassSummary :=
  match definition.segment.classDescriptor definition.classDef with
  | .error fault => .error (definition.errorInSegment (.bare fault))
  | .ok descriptor =>
      match summaryOf markers definition descriptor with
      | .error fault => .error (definition.faultInClass descriptor fault)
      | .ok summary => .ok summary

end JUnit4
end DexCensus
