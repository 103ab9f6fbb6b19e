/-
The header of a dex segment.

A header has 112 bytes: the magic with three version digits, checks and sizes
of the file, an endian tag, and a pair of size and offset for each of the
tables.  The magic and the endian tag are checked, the other numbers are taken
as they stand.
-/

import DexCensus.Reader

namespace DexCensus
namespace Dex

def magicStart : List UInt8 :=
  [0x64, 0x65, 0x78, 0x0a]

def minimumVersion : Nat :=
  35

def endianTag : UInt32 :=
  0x12345678

def isDigit (byte : UInt8) : Bool :=
  0x30 ≤ byte && byte ≤ 0x39

def digitsValue (digits : List UInt8) : Nat :=
  digits.foldl (fun value digit => value * 10 + (digit.toNat - 0x30)) 0

/-- The version that a magic names, or the fault in the magic: a wrong start,
end or digit, or a version below the first supported one. -/
def magicVersion (magic : List UInt8) : Except Fault Nat :=
  let digits := (magic.drop 4).take 3
  if magic.take 4 = magicStart ∧ magic.drop 7 = [0]
      ∧ digits.all isDigit = true then
    let version := digitsValue digits
    if version < minimumVersion then .error (.unsupportedVersion version)
    else .ok version
  else .error (.badMagic magic)

/-- Size and offset of a part of a segment.  The size counts the records of a
table, and bytes elsewhere. -/
structure Extent where
  size : UInt32
  offset : UInt32
  deriving DecidableEq

structure Header where
  magic : List UInt8
  version : Nat
  checksum : UInt32
  signature : List UInt8
  fileSize : UInt32
  headerSize : UInt32
  endianTag : UInt32
  link : Extent
  mapOffset : UInt32
  stringIds : Extent
  typeIds : Extent
  protoIds : Extent
  fieldIds : Extent
  methodIds : Extent
  classDefs : Extent
  data : Extent
  deriving DecidableEq

end Dex

namespace Reader

open Dex

def extent : Reader Extent := do
  let size ← u4
  let offset ← u4
  return { size := size, offset := offset }

def magic : Reader (List UInt8 × Nat) := do
  let magic ← take 8
  match magicVersion magic with
  | .ok version => return (magic, version)
  | .error fault => stop fault

def endian : Reader UInt32 := do
  let tag ← u4
  if tag = Dex.endianTag then return tag
  else stop (.badEndianTag tag)

/-- A header.  The whole buffer has to be long enough for one, wherever the
header starts. -/
def header : Reader Header := do
  let available ← bufferSize
  if available < headerSize then
    stop (.headerTruncated available)
  else
    let (magic, version) ← magic
    let checksum ← u4
    let signature ← take 20
    let fileSize ← u4
    let ownSize ← u4
    let tag ← endian
    let link ← extent
    let mapOffset ← u4
    let stringIds ← extent
    let typeIds ← extent
    let protoIds ← extent
    let fieldIds ← extent
    let methodIds ← extent
    let classDefs ← extent
    let data ← extent
    return {
      magic := magic
      version := version
      checksum := checksum
      signature := signature
      fileSize := fileSize
      headerSize := ownSize
      endianTag := tag
      link := link
      mapOffset := mapOffset
      stringIds := stringIds
      typeIds := typeIds
      protoIds := protoIds
      fieldIds := fieldIds
      methodIds := methodIds
      classDefs := classDefs
      data := data }

end Reader
end DexCensus
