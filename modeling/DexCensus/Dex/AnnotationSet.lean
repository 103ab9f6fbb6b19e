/-
Annotation items, sets of them, and the directory of a class.

An item is a visibility and a payload.  A set is a list of offsets of items,
where zero stands for no item.  The directory of a class gives the offset of
the set of the class itself and pairs of a member's index with the offset of
the member's set.
-/

import DexCensus.Dex.EncodedValue

namespace DexCensus
namespace Dex

structure Item where
  visibility : UInt8
  payload : Payload

structure Attachment where
  member : UInt32
  offset : UInt32
  deriving DecidableEq

structure Directory where
  classOffset : UInt32
  fields : List Attachment
  methods : List Attachment
  parameters : List Attachment
  deriving DecidableEq

namespace Directory

/-- The offset of the set of a method: that of the first pair for it. -/
def methodOffset? (directory : Directory) (method : UInt32) : Option UInt32 :=
  (directory.methods.find? fun pair => pair.member == method).map
    Attachment.offset

def hasMethod (directory : Directory) (method : UInt32) : Bool :=
  directory.methods.any fun pair => pair.member == method

end Directory

/-! ### Bytes -/

def wordBytes (value : Nat) : List UInt8 :=
  LittleEndian.bytes 4 value

def Attachment.bytes (pair : Attachment) : List UInt8 :=
  wordBytes pair.member.toNat ++ wordBytes pair.offset.toNat

def Directory.bytes (directory : Directory) : List UInt8 :=
  wordBytes directory.classOffset.toNat
    ++ wordBytes directory.fields.length
    ++ wordBytes directory.methods.length
    ++ wordBytes directory.parameters.length
    ++ directory.fields.flatMap Attachment.bytes
    ++ directory.methods.flatMap Attachment.bytes
    ++ directory.parameters.flatMap Attachment.bytes

end Dex

namespace Reader

open Dex

def item : Reader Item := do
  let visibility ← u1
  let payload ← payload
  return { visibility := visibility, payload := payload }

def itemOffsets : Reader (List UInt32) := do
  let size ← u4
  replicate u4 size.toNat

def attachment : Reader Attachment := do
  let member ← u4
  let offset ← u4
  return { member := member, offset := offset }

def directory : Reader Directory := do
  let classOffset ← u4
  let fieldsSize ← u4
  let methodsSize ← u4
  let parametersSize ← u4
  let fields ← replicate attachment fieldsSize.toNat
  let methods ← replicate attachment methodsSize.toNat
  let parameters ← replicate attachment parametersSize.toNat
  return {
    classOffset := classOffset
    fields := fields
    methods := methods
    parameters := parameters }

end Reader

namespace Dex

/-- The items of a set, in the order of its offsets.  A set at zero is empty,
an offset of zero in a set is passed over, and the first item that cannot be
read stops the reading. -/
def itemsAt (bytes : Bytes) (offset : UInt32) : Except Fault (List Item) :=
  if offset = 0 then .ok []
  else
    match Reader.itemOffsets.valueAt bytes offset.toNat with
    | .error fault => .error fault
    | .ok offsets =>
        (offsets.filter fun entry => entry ≠ 0).mapM fun entry =>
          Reader.item.valueAt bytes entry.toNat

end Dex
end DexCensus
