/-
The id tables of a dex segment.

Each table is an array of records of a fixed size.  Indices refer to other
tables and offsets to positions in the segment; both are kept as they stand,
and zero as an offset means that there is nothing.
-/

import DexCensus.Reader

namespace DexCensus
namespace Dex

structure Prototype where
  shorty : UInt32
  returnType : UInt32
  parametersOffset : UInt32
  deriving DecidableEq

structure Field where
  classType : UInt32
  type : UInt32
  name : UInt32
  deriving DecidableEq

structure Method where
  classType : UInt32
  proto : UInt32
  name : UInt32
  deriving DecidableEq

def noIndex : UInt32 :=
  0xffffffff

structure ClassDef where
  classType : UInt32
  accessFlags : UInt32
  superclassType : UInt32
  interfacesOffset : UInt32
  sourceFile : UInt32
  annotationsOffset : UInt32
  classDataOffset : UInt32
  staticValuesOffset : UInt32
  deriving DecidableEq

namespace ClassDef

def interfaceFlag : UInt32 :=
  0x200

def abstractFlag : UInt32 :=
  0x400

def isInterface (definition : ClassDef) : Bool :=
  definition.accessFlags &&& interfaceFlag = interfaceFlag

def isAbstract (definition : ClassDef) : Bool :=
  definition.accessFlags &&& abstractFlag = abstractFlag

def isConcrete (definition : ClassDef) : Bool :=
  !definition.isAbstract && !definition.isInterface

def hasDirectory (definition : ClassDef) : Bool :=
  definition.annotationsOffset ≠ 0

def superclass? (definition : ClassDef) : Option UInt32 :=
  if definition.superclassType = noIndex then none
  else some definition.superclassType

end ClassDef
end Dex

namespace Reader

open Dex

def prototype : Reader Prototype := do
  let shorty ← u4
  let returnType ← u4
  let parametersOffset ← u4
  return {
    shorty := shorty
    returnType := returnType
    parametersOffset := parametersOffset }

def shortIndex : Reader UInt32 := do
  let index ← u2
  return index.toUInt32

def field : Reader Field := do
  let classType ← shortIndex
  let type ← shortIndex
  let name ← u4
  return { classType := classType, type := type, name := name }

def method : Reader Method := do
  let classType ← shortIndex
  let proto ← shortIndex
  let name ← u4
  return { classType := classType, proto := proto, name := name }

def classDef : Reader ClassDef := do
  let classType ← u4
  let accessFlags ← u4
  let superclassType ← u4
  let interfacesOffset ← u4
  let sourceFile ← u4
  let annotationsOffset ← u4
  let classDataOffset ← u4
  let staticValuesOffset ← u4
  return {
    classType := classType
    accessFlags := accessFlags
    superclassType := superclassType
    interfacesOffset := interfacesOffset
    sourceFile := sourceFile
    annotationsOffset := annotationsOffset
    classDataOffset := classDataOffset
    staticValuesOffset := staticValuesOffset }

end Reader
end DexCensus
