/-
Encoded values: the constants that annotations hold.

A value starts with a header byte.  Its low five bits are the type, its high
three bits an argument: the number of bytes less one for numbers and indices,
the truth value for booleans, and nothing for arrays, nested annotations and
null.  Numbers may be written in fewer bytes than their type is wide; signed
ones are extended by their sign, unsigned ones and indices by zeros, and
floating-point bit patterns by zeros at the low end.

Arrays and nested annotations hold values again, so reading recurses.  Each
value takes at least its header byte, hence the number of bytes left bounds
the depth, and the reader hides that bound.
-/

import DexCensus.Uleb128

namespace DexCensus

-- Powers of numbers are those of the core library, whatever else is imported.
attribute [local instance (high)] instPowNat

namespace Dex

/-- A constant with its references left as indices.  Floating-point numbers
are kept as bit patterns. -/
inductive EncodedValue where
  | byte (value : Int8)
  | short (value : Int16)
  | char (value : UInt16)
  | int (value : Int32)
  | long (value : Int64)
  | float (bits : UInt32)
  | double (bits : UInt64)
  | methodType (index : UInt32)
  | methodHandle (index : UInt32)
  | string (index : UInt32)
  | type (index : UInt32)
  | field (index : UInt32)
  | method (index : UInt32)
  | enum (index : UInt32)
  | array (values : List EncodedValue)
  | nested (type : UInt32) (elements : List (UInt32 × EncodedValue))
  | null
  | bool (value : Bool)

abbrev Element : Type := UInt32 × EncodedValue

structure Payload where
  type : UInt32
  elements : List Element

def signedNumber (bytes : List UInt8) : Int :=
  Int.bmod (LittleEndian.number bytes) (256 ^ bytes.length)

/-- The number whose high-order bytes are given and whose other bytes, up to
`width` of them in all, are zero. -/
def leftAligned (width : Nat) (bytes : List UInt8) : Nat :=
  LittleEndian.number bytes * 256 ^ (width - bytes.length)

end Dex

namespace Reader

open Dex

/-- The bytes of a number that takes `size` bytes and whose type is `width`
bytes wide. -/
def narrow (size width : Nat) : Reader (List UInt8) :=
  if size = 0 ∨ width < size then stop (.valueSize size width)
  else take size

def signed (size width : Nat) : Reader Int := do
  let bytes ← narrow size width
  return signedNumber bytes

def unsigned (size width : Nat) : Reader Nat := do
  let bytes ← narrow size width
  return LittleEndian.number bytes

def pattern (size width : Nat) : Reader Nat := do
  let bytes ← narrow size width
  return leftAligned width bytes

def index (size : Nat) : Reader UInt32 := do
  let value ← unsigned size 4
  return UInt32.ofNat value

/-! ### Values that hold values -/

def arrayOf (value : Reader EncodedValue) : Reader (List EncodedValue) := do
  let size ← count
  replicate value size

def elementOf (value : Reader EncodedValue) : Reader Element := do
  let name ← uleb128
  let value ← value
  return (name, value)

def payloadOf (value : Reader EncodedValue) : Reader Payload := do
  let type ← uleb128
  let size ← count
  let elements ← replicate (elementOf value) size
  return { type := type, elements := elements }

/-- What follows a header byte of type `type` and argument `argument` that
stands at `start`.  `value` reads the values inside this one. -/
def valueBody (value : Reader EncodedValue) (start : Nat)
    (type argument : UInt8) : Reader EncodedValue :=
  let size := argument.toNat + 1
  match type.toNat with
  | 0x00 => do return .byte (Int8.ofInt (← signed size 1))
  | 0x02 => do return .short (Int16.ofInt (← signed size 2))
  | 0x03 => do return .char (UInt16.ofNat (← unsigned size 2))
  | 0x04 => do return .int (Int32.ofInt (← signed size 4))
  | 0x06 => do return .long (Int64.ofInt (← signed size 8))
  | 0x10 => do return .float (UInt32.ofNat (← pattern size 4))
  | 0x11 => do return .double (UInt64.ofNat (← pattern size 8))
  | 0x15 => do return .methodType (← index size)
  | 0x16 => do return .methodHandle (← index size)
  | 0x17 => do return .string (← index size)
  | 0x18 => do return .type (← index size)
  | 0x19 => do return .field (← index size)
  | 0x1a => do return .method (← index size)
  | 0x1b => do return .enum (← index size)
  | 0x1c => do return .array (← arrayOf value)
  | 0x1d => do
      let payload ← payloadOf value
      return .nested payload.type payload.elements
  | 0x1e => succeed .null
  | 0x1f => succeed (.bool (argument ≠ 0))
  | _ => stop (.unknownValueType type start)

def valueStep (value : Reader EncodedValue) : Reader EncodedValue := do
  let start ← position
  let header ← u1
  valueBody value start (header &&& 0x1f) (header >>> 5)

/-- A value with at most `depth` values around each other.  A value too deep
is treated as one that starts at the end. -/
def valueWithin : Nat → Bytes → Nat → Except Fault (EncodedValue × Nat)
  | 0, _, position => .error (.numberPastEnd .one position)
  | depth + 1, bytes, position => valueStep (valueWithin depth) bytes position

/-- An encoded value of any depth.  Every value inside another one starts
behind a header byte, so the bytes left bound the depth. -/
def encodedValue : Reader EncodedValue :=
  fun bytes position =>
    valueWithin (bytes.size - position + 1) bytes position

def encodedArray : Reader (List EncodedValue) :=
  arrayOf encodedValue

def element : Reader Element :=
  elementOf encodedValue

def payload : Reader Payload :=
  payloadOf encodedValue

end Reader
end DexCensus
