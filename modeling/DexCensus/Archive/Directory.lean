/-
The directory of an archive.

The end record stands at the end of the file, followed only by a comment.  It
gives the number of entries and the size and offset of the directory.  Where
the directory really ends tells how many bytes were put in front of the
archive, and all offsets are corrected by that.

A directory record tells all about an entry but the place of its data, for
which the local record in front of the data has to be asked.
-/

import DexCensus.Archive.Fault
import DexCensus.Reader
import DexCensus.Text.Utf8

namespace DexCensus

namespace CodePage437

/-- The upper half of the code page; the lower half is ASCII. -/
def upperHalf : List Char :=
  ['Ç', 'ü', 'é', 'â', 'ä', 'à', 'å', 'ç', 'ê', 'ë', 'è', 'ï', 'î', 'ì', 'Ä', 'Å']
    ++ ['É', 'æ', 'Æ', 'ô', 'ö', 'ò', 'û', 'ù', 'ÿ', 'Ö', 'Ü', '¢', '£', '¥', '₧', 'ƒ']
    ++ ['á', 'í', 'ó', 'ú', 'ñ', 'Ñ', 'ª', 'º', '¿', '⌐', '¬', '½', '¼', '¡', '«', '»']
    ++ ['░', '▒', '▓', '│', '┤', '╡', '╢', '╖', '╕', '╣', '║', '╗', '╝', '╜', '╛', '┐']
    ++ ['└', '┴', '┬', '├', '─', '┼', '╞', '╟', '╚', '╔', '╩', '╦', '╠', '═', '╬', '╧']
    ++ ['╨', '╤', '╥', '╙', '╘', '╒', '╓', '╫', '╪', '┘', '┌', '█', '▄', '▌', '▐', '▀']
    ++ ['α', 'ß', 'Γ', 'π', 'Σ', 'σ', 'µ', 'τ', 'Φ', 'Θ', 'Ω', 'δ', '∞', 'φ', 'ε', '∩']
    ++ ['≡', '±', '≥', '≤', '⌠', '⌡', '÷', '≈', '°', '∙', '·', '√', 'ⁿ', '²', '■', '\u00a0']

def char (byte : UInt8) : Char :=
  if byte < 0x80 then Char.ofNat byte.toNat
  else upperHalf.getD (byte.toNat - 128) '?'

def decode (bytes : List UInt8) : String :=
  String.ofList (bytes.map char)

end CodePage437

namespace Archive

def numberAt (bytes : Bytes) (position width : Nat) : Except Fault Nat :=
  if position + width ≤ bytes.size then
    .ok (LittleEndian.number (bytes.window position width))
  else .error (.file .pastEnd)

def endSignature : Nat :=
  0x06054b50

def endRecordSize : Nat :=
  22

def maximumComment : Nat :=
  0xffff

/-- The last position, from `position` down, with the signature of an end
record.  `left` more positions are tried. -/
def endRecordFrom (bytes : Bytes) : Nat → Nat → Option Nat
  | 0, position =>
      if LittleEndian.number (bytes.window position 4) = endSignature then
        some position
      else none
  | left + 1, position =>
      if LittleEndian.number (bytes.window position 4) = endSignature then
        some position
      else endRecordFrom bytes left (position - 1)

def endRecordPosition (bytes : Bytes) : Except Fault Nat :=
  if bytes.size < endRecordSize then .error .tooShort
  else
    let last := bytes.size - endRecordSize
    match endRecordFrom bytes (min last maximumComment) last with
    | some position => .ok position
    | none => .error .noEndRecord

structure EndRecord where
  disk : Nat
  directoryDisk : Nat
  entriesOnDisk : Nat
  entries : Nat
  directorySize : Nat
  directoryOffset : Nat

def endRecordAt (bytes : Bytes) (position : Nat) : Except Fault EndRecord := do
  let disk ← numberAt bytes (position + 4) 2
  let directoryDisk ← numberAt bytes (position + 6) 2
  let entriesOnDisk ← numberAt bytes (position + 8) 2
  let entries ← numberAt bytes (position + 10) 2
  let directorySize ← numberAt bytes (position + 12) 4
  let directoryOffset ← numberAt bytes (position + 16) 4
  let commentSize ← numberAt bytes (position + 20) 2
  let _ ← numberAt bytes (position + endRecordSize) commentSize
  return {
    disk := disk
    directoryDisk := directoryDisk
    entriesOnDisk := entriesOnDisk
    entries := entries
    directorySize := directorySize
    directoryOffset := directoryOffset }

namespace EndRecord

/-- Whether some number is the greatest one of its width, which says that the
real number stands elsewhere. -/
def isOverflown (record : EndRecord) : Bool :=
  record.disk = 0xffff || record.directoryDisk = 0xffff
    || record.entriesOnDisk = 0xffff || record.entries = 0xffff
    || record.directorySize = 0xffffffff
    || record.directoryOffset = 0xffffffff

/-- How many bytes stand in front of the archive, given the position of the
end record. -/
def precedingBytes (record : EndRecord) (position : Nat) : Except Fault Nat :=
  if position < record.directorySize + record.directoryOffset then
    .error .badDirectoryExtent
  else .ok (position - record.directorySize - record.directoryOffset)

end EndRecord

/-! ### Directory records -/

def directorySignature : Nat :=
  0x02014b50

def directoryRecordSize : Nat :=
  46

structure Entry where
  name : String
  isEncrypted : Bool
  hasEncryptionField : Bool
  method : Nat
  checksum : UInt32
  compressedSize : Nat
  position : Nat

def encryptionMethod : Nat :=
  99

def encryptionField : Nat :=
  0x9901

def encryptionFieldSize : Nat :=
  7

/-- The check of the content of an encryption field: its version, its vendor
and the strength of the encryption. -/
def checkEncryption (content : List UInt8) : Except Fault Unit :=
  let version := LittleEndian.number (content.take 2)
  let vendor := LittleEndian.number ((content.drop 2).take 2)
  let strength := LittleEndian.number ((content.drop 4).take 1)
  if vendor ≠ 0x4541 then .error .badEncryptionVendor
  else if version ≠ 1 ∧ version ≠ 2 then .error .badEncryptionVersion
  else if strength < 1 ∨ 3 < strength then .error .badEncryptionStrength
  else .ok ()

def methodUnderEncryption (content : List UInt8) : Except Fault Nat :=
  match checkEncryption content with
  | .error fault => .error fault
  | .ok _ => .ok (LittleEndian.number ((content.drop 5).take 2))

/-- The compression method under the encryption, by some extra fields; `found`
is what the fields before them say.  Each field is its number, its length and
its content, and behind an encryption field as many bytes as its content has
are passed over.  A field that is cut off ends the list.  `limit` bounds how
many fields there are. -/
def encryptedMethod (found : Option Nat) :
    Nat → List UInt8 → Except Fault (Option Nat)
  | 0, _ => .ok found
  | limit + 1, fields =>
      if fields.length < 4 then .ok found
      else
        let number := LittleEndian.number (fields.take 2)
        let length := LittleEndian.number ((fields.drop 2).take 2)
        let content := fields.drop 4
        if number ≠ encryptionField then
          encryptedMethod found limit (content.drop length)
        else if length ≠ encryptionFieldSize then
          .error .badEncryptionFieldSize
        else if content.length < length then .ok found
        else
          match methodUnderEncryption content with
          | .error fault => .error fault
          | .ok method =>
              encryptedMethod (some method) limit
                (content.drop (2 * encryptionFieldSize))

def entryName (isUtf8 : Bool) (bytes : List UInt8) : String :=
  if isUtf8 then String.ofList (Utf8.decodeLossy bytes)
  else CodePage437.decode bytes

/-- The directory record at a position, and the position after it.  The
archive has `preceding` bytes in front of it. -/
def entryAt (bytes : Bytes) (preceding position : Nat) :
    Except Fault (Entry × Nat) := do
  let signature ← numberAt bytes position 4
  if signature ≠ directorySignature then .error .badDirectoryRecord
  else
    let flags ← numberAt bytes (position + 8) 2
    let method ← numberAt bytes (position + 10) 2
    let checksum ← numberAt bytes (position + 16) 4
    let compressedSize ← numberAt bytes (position + 20) 4
    let nameSize ← numberAt bytes (position + 28) 2
    let extraSize ← numberAt bytes (position + 30) 2
    let commentSize ← numberAt bytes (position + 32) 2
    let offset ← numberAt bytes (position + 42) 4
    let nameStart := position + directoryRecordSize
    let extraStart := nameStart + nameSize
    let next := extraStart + extraSize + commentSize
    if bytes.size < next then .error (.file .pastEnd)
    else
      let extra := bytes.window extraStart extraSize
      let underEncryption ← encryptedMethod none extra.length extra
      if method = encryptionMethod ∧ underEncryption = none then
        .error .missingEncryptionField
      else
        let name := entryName (flags / 2048 % 2 = 1)
          (bytes.window nameStart nameSize)
        return ({
          name := name
          isEncrypted := flags % 2 = 1
          hasEncryptionField := underEncryption.isSome
          method := underEncryption.getD method
          checksum := UInt32.ofNat checksum
          compressedSize := compressedSize
          position := offset + preceding }, next)

/-- `count` directory records from a position on; `done` holds those before,
the last one first. -/
def entriesFrom (bytes : Bytes) (preceding : Nat) :
    Nat → List Entry → Nat → Except Fault (List Entry)
  | 0, done, _ => .ok done.reverse
  | count + 1, done, position =>
      match entryAt bytes preceding position with
      | .error fault => .error fault
      | .ok (entry, next) =>
          entriesFrom bytes preceding count (entry :: done) next

def entries (bytes : Bytes) : Except Fault (List Entry) := do
  let position ← endRecordPosition bytes
  let record ← endRecordAt bytes position
  if record.isOverflown = false ∧ record.disk ≠ record.directoryDisk then
    .error .severalDisks
  else
    let preceding ← record.precedingBytes position
    entriesFrom bytes preceding record.entriesOnDisk []
      (record.directoryOffset + preceding)

end Archive
end DexCensus
