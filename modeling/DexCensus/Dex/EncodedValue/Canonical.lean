/-
The canonical bytes of encoded values.

The format leaves a choice: a number may take more bytes than it needs, and so
may a count or an index.  The canonical form takes the fewest bytes
everywhere.  Signed numbers drop bytes that only repeat the sign, unsigned
ones and indices drop high zeros, floating-point patterns drop low zeros, and
each number keeps at least one byte.
-/

import DexCensus.Dex.EncodedValue

namespace DexCensus

-- Powers of numbers are those of the core library, whatever else is imported.
attribute [local instance (high)] instPowNat

namespace Dex

/-- The first size from `size` on that fits, at most `more` steps further. -/
def leastSize (fits : Nat → Bool) : Nat → Nat → Nat
  | 0, size => size
  | more + 1, size =>
      if fits size then size else leastSize fits more (size + 1)

def signedSize (value : Int) : Nat :=
  leastSize (fun size => Int.bmod value (256 ^ size) = value) 7 1

def unsignedSize (value : Nat) : Nat :=
  leastSize (fun size => value < 256 ^ size) 7 1

/-- The bytes that a pattern of `width` bytes keeps: those from its lowest
byte on that is not zero, or its highest byte. -/
def keptBytes (width bits : Nat) : List UInt8 :=
  match (LittleEndian.bytes width bits).dropWhile (· = 0) with
  | [] => [0]
  | kept => kept

def headerByte (type argument : Nat) : UInt8 :=
  UInt8.ofNat (32 * argument + type)

def sizedValue (type : Nat) (content : List UInt8) : List UInt8 :=
  headerByte type (content.length - 1) :: content

def signedValue (type : Nat) (value : Int) : List UInt8 :=
  let size := signedSize value
  sizedValue type
    (LittleEndian.bytes size (value.emod (256 ^ size : Nat)).toNat)

def unsignedValue (type value : Nat) : List UInt8 :=
  sizedValue type (LittleEndian.bytes (unsignedSize value) value)

def patternValue (type width bits : Nat) : List UInt8 :=
  sizedValue type (keptBytes width bits)

def countBytes {α : Type} (values : List α) : List UInt8 :=
  Uleb128.encode (UInt32.ofNat values.length)

namespace EncodedValue

mutual

def canonical : EncodedValue → List UInt8
  | .byte value => signedValue 0x00 value.toInt
  | .short value => signedValue 0x02 value.toInt
  | .char value => unsignedValue 0x03 value.toNat
  | .int value => signedValue 0x04 value.toInt
  | .long value => signedValue 0x06 value.toInt
  | .float bits => patternValue 0x10 4 bits.toNat
  | .double bits => patternValue 0x11 8 bits.toNat
  | .methodType index => unsignedValue 0x15 index.toNat
  | .methodHandle index => unsignedValue 0x16 index.toNat
  | .string index => unsignedValue 0x17 index.toNat
  | .type index => unsignedValue 0x18 index.toNat
  | .field index => unsignedValue 0x19 index.toNat
  | .method index => unsignedValue 0x1a index.toNat
  | .enum index => unsignedValue 0x1b index.toNat
  | .array values =>
      headerByte 0x1c 0 :: (countBytes values ++ canonicalList values)
  | .nested annotationType elements =>
      headerByte 0x1d 0
        :: (Uleb128.encode annotationType ++ countBytes elements
          ++ canonicalElements elements)
  | .null => [headerByte 0x1e 0]
  | .bool value => [headerByte 0x1f (if value then 1 else 0)]

def canonicalList : List EncodedValue → List UInt8
  | [] => []
  | value :: rest => canonical value ++ canonicalList rest

def canonicalElements : List (UInt32 × EncodedValue) → List UInt8
  | [] => []
  | (name, value) :: rest =>
      Uleb128.encode name ++ canonical value ++ canonicalElements rest

end

end EncodedValue

def Payload.canonical (payload : Payload) : List UInt8 :=
  Uleb128.encode payload.type ++ countBytes payload.elements
    ++ EncodedValue.canonicalElements payload.elements

end Dex
end DexCensus
