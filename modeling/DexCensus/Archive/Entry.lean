/-
Opening and reading the entries of an archive.

An entry is opened before it is read.  Opening checks that the flags do not
say it is encrypted, finds the data through the local record, checks the
method, and then that no field says it is encrypted either.
Reading decompresses the data and compares the checksum, which is the remainder
of the bytes, read as a polynomial over two elements with the least significant
bit of each byte first, complemented before and after.

The size the directory gives for the decompressed data only tells how much
memory to reserve for them.  That reservation, and its failing for sizes that no
memory has, is left out here.
-/

import DexCensus.Archive.Directory
import DexCensus.Archive.Inflate

namespace DexCensus
namespace Archive

/-- An entry that is open: its name, and its bytes or the reason why they
cannot be read.  The bytes are read only when asked for. -/
structure OpenEntry where
  name : String
  content : Thunk (Except FileFault Bytes)

/-- An archive whose directory was read: each entry open, or the reason why it
cannot be opened. -/
abbrev Opened : Type :=
  List (Except Fault OpenEntry)

/-- The divisor, its bits in reversed order and without the highest one. -/
def checksumDivisor : UInt32 :=
  0xedb88320

def checksumBit (state : UInt32) : UInt32 :=
  if state &&& 1 = 1 then (state >>> 1) ^^^ checksumDivisor else state >>> 1

def checksumByte (state : UInt32) (byte : UInt8) : UInt32 :=
  checksumBit (checksumBit (checksumBit (checksumBit
    (checksumBit (checksumBit (checksumBit (checksumBit
      (state ^^^ byte.toUInt32))))))))

def checksum (bytes : Bytes) : UInt32 :=
  bytes.foldl checksumByte 0xffffffff ^^^ 0xffffffff

inductive Method where
  | stored
  | deflated
  deriving DecidableEq

def Method.ofNumber? : Nat → Option Method
  | 0 => some .stored
  | 8 => some .deflated
  | _ => none

def Method.decompress : Method → Bytes → Except FileFault Bytes
  | .stored, bytes => .ok bytes
  | .deflated, bytes => inflate bytes

def localSignature : Nat :=
  0x04034b50

def localRecordSize : Nat :=
  30

def dataPosition (bytes : Bytes) (entry : Entry) : Except Fault Nat := do
  let signature ← numberAt bytes entry.position 4
  if signature ≠ localSignature then .error .badLocalRecord
  else
    let nameSize ← numberAt bytes (entry.position + 26) 2
    let extraSize ← numberAt bytes (entry.position + 28) 2
    return entry.position + localRecordSize + nameSize + extraSize

/-- The bytes of an entry whose data start at a position.  The checksum counts
only if the data can be decompressed. -/
def readEntry (bytes : Bytes) (entry : Entry) (method : Method)
    (position : Nat) : Except FileFault Bytes :=
  let data := bytes.extract position (position + entry.compressedSize)
  match method.decompress data with
  | .error fault => .error fault
  | .ok content =>
      if checksum content = entry.checksum then .ok content
      else .error .badChecksum

def openEntry (bytes : Bytes) (entry : Entry) : Except Fault OpenEntry :=
  if entry.isEncrypted then .error .encrypted
  else
    match dataPosition bytes entry with
    | .error fault => .error fault
    | .ok position =>
        match Method.ofNumber? entry.method with
        | none => .error .unknownMethod
        | some method =>
            if entry.hasEncryptionField then .error .encrypted
            else
              .ok {
                name := entry.name
                content := Thunk.mk fun _ =>
                  readEntry bytes entry method position }

def opened (bytes : Bytes) : Except Fault Opened :=
  (entries bytes).map fun found => found.map (openEntry bytes)

end Archive
end DexCensus
