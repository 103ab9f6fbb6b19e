/-
The fields and methods that a class definition lists.

Four counts come before four lists.  An entry gives its index as the
difference to the entry before it in the same list, modulo 2 ^ 32, and the
first entry of each list counts from zero.
-/

import DexCensus.Uleb128

namespace DexCensus
namespace Dex

structure MemberField where
  field : UInt32
  accessFlags : UInt32
  deriving DecidableEq

structure MemberMethod where
  method : UInt32
  accessFlags : UInt32
  codeOffset : UInt32
  deriving DecidableEq

structure ClassData where
  staticFields : List MemberField
  instanceFields : List MemberField
  directMethods : List MemberMethod
  virtualMethods : List MemberMethod
  deriving DecidableEq

namespace ClassData

def empty : ClassData :=
  { staticFields := []
    instanceFields := []
    directMethods := []
    virtualMethods := [] }

def virtualMethodIndices (members : ClassData) : List UInt32 :=
  members.virtualMethods.map MemberMethod.method

end ClassData

/-- The fields whose indices are the running sums of those of a list, starting
from `index`. -/
def absoluteFields (index : UInt32) : List MemberField → List MemberField
  | [] => []
  | entry :: rest =>
      { entry with field := index + entry.field }
        :: absoluteFields (index + entry.field) rest

def absoluteMethods (index : UInt32) : List MemberMethod → List MemberMethod
  | [] => []
  | entry :: rest =>
      { entry with method := index + entry.method }
        :: absoluteMethods (index + entry.method) rest

/-- The fields with the differences to the one before in the place of their
indices, the first one counted from `index`. -/
def relativeFields (index : UInt32) : List MemberField → List MemberField
  | [] => []
  | entry :: rest =>
      { entry with field := entry.field - index }
        :: relativeFields entry.field rest

def relativeMethods (index : UInt32) : List MemberMethod → List MemberMethod
  | [] => []
  | entry :: rest =>
      { entry with method := entry.method - index }
        :: relativeMethods entry.method rest

theorem absoluteFields_relativeFields (index : UInt32)
    (entries : List MemberField) :
    absoluteFields index (relativeFields index entries) = entries := by
  induction entries generalizing index with
  | nil => rfl
  | cons entry rest ih =>
      have restored : index + (entry.field - index) = entry.field := by
        rw [UInt32.add_comm, UInt32.sub_add_cancel]
      simp only [relativeFields, absoluteFields, restored, ih]

theorem absoluteMethods_relativeMethods (index : UInt32)
    (entries : List MemberMethod) :
    absoluteMethods index (relativeMethods index entries) = entries := by
  induction entries generalizing index with
  | nil => rfl
  | cons entry rest ih =>
      have restored : index + (entry.method - index) = entry.method := by
        rw [UInt32.add_comm, UInt32.sub_add_cancel]
      simp only [relativeMethods, absoluteMethods, restored, ih]

end Dex

namespace Reader

open Dex

def relativeField : Reader MemberField := do
  let difference ← uleb128
  let accessFlags ← uleb128
  return { field := difference, accessFlags := accessFlags }

def relativeMethod : Reader MemberMethod := do
  let difference ← uleb128
  let accessFlags ← uleb128
  let codeOffset ← uleb128
  return {
    method := difference
    accessFlags := accessFlags
    codeOffset := codeOffset }

def memberFields (size : Nat) : Reader (List MemberField) := do
  let entries ← replicate relativeField size
  return absoluteFields 0 entries

def memberMethods (size : Nat) : Reader (List MemberMethod) := do
  let entries ← replicate relativeMethod size
  return absoluteMethods 0 entries

def classData : Reader ClassData := do
  let staticSize ← count
  let instanceSize ← count
  let directSize ← count
  let virtualSize ← count
  let staticFields ← memberFields staticSize
  let instanceFields ← memberFields instanceSize
  let directMethods ← memberMethods directSize
  let virtualMethods ← memberMethods virtualSize
  return {
    staticFields := staticFields
    instanceFields := instanceFields
    directMethods := directMethods
    virtualMethods := virtualMethods }

end Reader
end DexCensus
