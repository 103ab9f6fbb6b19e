/-
What can go wrong in a dex segment.

A `Fault` is one cause with the facts its message shows.  Every fault belongs
to one of four kinds.  A `DexError` is a fault together with the places it was
met in, the innermost first.

This file decides no reading rule: it only names the causes and words them.
-/

import DexCensus.Text.Quoted
import DexCensus.Text.Utf8

namespace DexCensus

inductive FaultKind where
  /-- Wrong magic or endian tag, an index out of range, or a read past the
  end of the buffer. -/
  | malformedContainer
  /-- A variable-length number that does not end with its fifth byte. -/
  | malformedVarint
  /-- An encoded value of a type that the format does not have. -/
  | unsupportedValueType
  /-- A class that is met again among its own superclasses. -/
  | cyclicHierarchy
  deriving DecidableEq

def FaultKind.label : FaultKind → String
  | .malformedContainer => "malformed dex container"
  | .malformedVarint => "malformed uleb128"
  | .unsupportedValueType => "unsupported encoded value"
  | .cyclicHierarchy => "cyclic class hierarchy"

inductive NumberWidth where
  | one
  | two
  | four
  deriving DecidableEq

def NumberWidth.size : NumberWidth → Nat
  | .one => 1
  | .two => 2
  | .four => 4

def NumberWidth.label (width : NumberWidth) : String :=
  s!"u{width.size}"

inductive Pool where
  | strings
  | types
  | fields
  | methods
  deriving DecidableEq

def Pool.entryLabel : Pool → String
  | .strings => "String"
  | .types => "Type"
  | .fields => "Field"
  | .methods => "Method"

def Pool.label : Pool → String
  | .strings => "strings"
  | .types => "types"
  | .fields => "fields"
  | .methods => "methods"

inductive Fault where
  | numberPastEnd (width : NumberWidth) (position : Nat)
  | varintBehindEnd (position : Nat)
  | varintTruncated (available : Nat)
  | varintOverlong
  | bytesPastEnd (length position : Nat)
  /-- A value takes no byte at all, or more bytes than its type is wide. -/
  | valueSize (size width : Nat)
  | unknownValueType (type : UInt8) (position : Nat)
  | headerTruncated (available : Nat)
  | badMagic (magic : List UInt8)
  | unsupportedVersion (version : Nat)
  | badEndianTag (tag : UInt32)
  | tablePastEnd (count recordSize offset : Nat)
  | indexOutOfRange (pool : Pool) (index size : Nat)
  | badStringData (fault : Utf8.Fault)
  | notClassDescriptor (descriptor : String)
  | ownAncestor (className : String) (classIndex : UInt32)
  deriving DecidableEq

def headerSize : Nat :=
  0x70

def Fault.kind : Fault → FaultKind
  | .varintOverlong => .malformedVarint
  | .unknownValueType .. => .unsupportedValueType
  | .ownAncestor .. => .cyclicHierarchy
  | _ => .malformedContainer

def Fault.message : Fault → String
  | .numberPastEnd width position =>
      let label := width.label
      s!"Unexpected end of stream reading {label} at index {position}"
  | .varintBehindEnd position =>
      s!"Unexpected end of stream reading uleb128 at index {position}"
  | .varintTruncated available =>
      s!"Unexpected end of stream reading uleb128 ({available} bytes available)"
  | .varintOverlong =>
      "invalid LEB128 sequence: continuation bit set on 5th byte"
  | .bytesPastEnd length position =>
      s!"buffer too short for {length} byte array read at index {position}"
  | .valueSize size width =>
      s!"Invalid encoded value size {size} for a {width} byte field"
  | .unknownValueType type position =>
      let digits := Digits.paddedHexadecimal 2 type.toNat
      s!"Unknown EncodedValue type 0x{digits} at index {position}"
  | .headerTruncated available =>
      s!"Not enough bytes for header: {available} < {headerSize}"
  | .badMagic magic =>
      let digits := ", ".intercalate
        (magic.map fun byte => Digits.paddedHexadecimal 2 byte.toNat)
      s!"Invalid magic value: [{digits}]"
  | .unsupportedVersion version =>
      let digits := Digits.paddedDecimal 3 version
      s!"Unsupported dex version {digits}"
  | .badEndianTag tag =>
      let digits := Digits.paddedHexadecimal 8 tag.toNat
      s!"Invalid endian tag: 0x{digits}"
  | .tablePastEnd count recordSize offset =>
      let digits := Digits.hexadecimal offset
      s!"Table of {count} x {recordSize} bytes at 0x{digits} runs past end of file"
  | .indexOutOfRange pool index size =>
      let entry := pool.entryLabel
      let entries := pool.label
      s!"{entry} index {index} out of range ({size} {entries})"
  | .badStringData fault =>
      let detail := fault.message
      s!"Invalid MUTF-8 string data: {detail}"
  | .notClassDescriptor descriptor =>
      let quoted := Quoted.quote descriptor
      s!"Not a class descriptor: {quoted}"
  | .ownAncestor className classIndex =>
      s!"class {className} is its own ancestor (class_idx {classIndex})"

/-! ### Errors with their places -/

inductive Place where
  | ofClass (descriptor : String)
  | ofSegment (number : Nat)
  deriving DecidableEq

def Place.label : Place → String
  | .ofClass descriptor => s!"class {descriptor}"
  | .ofSegment number => s!"dex segment #{number}"

/-- A fault and the places it was met in, the innermost first. -/
structure DexError where
  fault : Fault
  places : List Place
  deriving DecidableEq

namespace DexError

def bare (fault : Fault) : DexError :=
  { fault := fault, places := [] }

def inside (place : Place) (error : DexError) : DexError :=
  { error with places := error.places ++ [place] }

def kind (error : DexError) : FaultKind :=
  error.fault.kind

def detail (error : DexError) : String :=
  error.fault.message

/-- The places in words, each introduced by a connecting word. -/
def trail : List Place → String
  | [] => ""
  | innermost :: outer =>
      " for " ++ innermost.label
        ++ String.join (outer.map fun place => " of " ++ place.label)

def message (error : DexError) : String :=
  error.kind.label ++ ": " ++ error.detail ++ trail error.places

end DexError
end DexCensus
