/-
Test methods and the annotations that apply to them.

A test method is a name and a list of annotations.  Two methods are the same
if both agree; they are ordered by name alone.
-/

import DexCensus.Value

namespace DexCensus

structure TestAnnotation where
  name : String
  values : NamedValues
  inherited : Bool
  deriving DecidableEq

def TestAnnotation.hashInputs (entry : TestAnnotation) : List HashInput :=
  .text entry.name :: .length entry.values.length
    :: (Value.namedHashInputs entry.values ++ [.bool entry.inherited])

structure TestMethod where
  testName : String
  annotations : List TestAnnotation
  deriving DecidableEq

namespace TestMethod

def hashInputs (method : TestMethod) : List HashInput :=
  .text method.testName :: .length method.annotations.length
    :: method.annotations.flatMap TestAnnotation.hashInputs

@[reducible]
def hashedBy (digest : List HashInput → UInt64) : Hashable TestMethod :=
  ⟨fun method => digest method.hashInputs⟩

instance : Hashable TestMethod :=
  hashedBy HashInput.digest

def find? (method : TestMethod) (name : String) : Option TestAnnotation :=
  method.annotations.find? fun entry => entry.name == name

def has (method : TestMethod) (name : String) : Bool :=
  (method.find? name).isSome

def annotationNames (method : TestMethod) : List String :=
  method.annotations.map TestAnnotation.name

def compareNames (left right : TestMethod) : Ordering :=
  compare left.testName right.testName

def nameLe (left right : TestMethod) : Bool :=
  (compareNames left right).isLE

/-- Methods in ascending order of their names.  Methods of the same name keep
their order. -/
def sortedByName (methods : List TestMethod) : List TestMethod :=
  methods.mergeSort nameLe

def withoutRepeats : List String → List String
  | first :: second :: rest =>
      if first = second then withoutRepeats (second :: rest)
      else first :: withoutRepeats (second :: rest)
  | names => names

def names (methods : List TestMethod) : List String :=
  withoutRepeats (methods.map TestMethod.testName)

end TestMethod
end DexCensus
