/-
The modified UTF-8 of class files, and the two spellings of string data.

Modified UTF-8 writes U+0000 as the pair C0 80 and a character above U+FFFF as
two surrogates of three bytes each; all other characters are written as in
UTF-8, so no character takes four bytes and no byte is zero.

String data is read as UTF-8 if it is that, and as modified UTF-8 otherwise.
The fault of data that is neither is that of reading it as UTF-8.
-/

import DexCensus.Text.Utf8

namespace DexCensus
namespace ModifiedUtf8

/-- Three-byte sequences that stand for themselves: those of UTF-8. -/
def isPlainThree (lead second : UInt8) : Bool :=
  Utf8.isContinuation second && Utf8.isSecondOfThree lead second

/-- The character of a surrogate pair.  `high` and `low` are the payloads of
the two surrogates, ten bits each. -/
def paired (high low : Nat) : Char :=
  Char.ofNat (0x10000 + high * 1024 + low)

def surrogatePayload (second third : UInt8) : Nat :=
  second.toNat % 16 * 64 + Utf8.payload third

/-- Whether the second byte of a surrogate makes it the first of a pair. -/
def isHighSurrogate (second : UInt8) : Bool :=
  0xa0 ≤ second && second ≤ 0xaf

/-- Whether the second byte of a surrogate makes it the second of a pair. -/
def isLowSurrogate (second : UInt8) : Bool :=
  0xb0 ≤ second && second ≤ 0xbf

/-- Reading with `done` holding the characters so far, the last one first. -/
def decodeFrom? (done : List Char) : List UInt8 → Option (List Char)
  | [] => some done.reverse
  | lead :: rest =>
      if lead = 0 then none
      else if lead < 0x80 then
        decodeFrom? (Char.ofNat lead.toNat :: done) rest
      else if lead = 0xc0 then
        match rest with
        | second :: rest =>
            if second = 0x80 then decodeFrom? ('\x00' :: done) rest else none
        | [] => none
      else if lead < 0xc2 then none
      else if lead < 0xe0 then
        match rest with
        | second :: rest =>
            if Utf8.isContinuation second then
              decodeFrom? (Utf8.twoByte lead second :: done) rest
            else none
        | [] => none
      else if lead < 0xf0 then
        match rest with
        | second :: third :: rest =>
            if Utf8.isContinuation second && Utf8.isContinuation third then
              if isPlainThree lead second then
                decodeFrom? (Utf8.threeByte lead second third :: done) rest
              else if lead = 0xed && isHighSurrogate second then
                match rest with
                | fourth :: fifth :: sixth :: rest =>
                    if fourth = 0xed && isLowSurrogate fifth
                        && Utf8.isContinuation sixth then
                      decodeFrom?
                        (paired (surrogatePayload second third)
                          (surrogatePayload fifth sixth) :: done) rest
                    else none
                | _ => none
              else none
            else none
        | _ => none
      else none

def decode? (bytes : List UInt8) : Option (List Char) :=
  decodeFrom? [] bytes

/-- The bytes of a character.  A character above U+FFFF is written as its two
surrogates. -/
def encodeChar (char : Char) : List UInt8 :=
  let code := char.toNat
  if code = 0 then [0xc0, 0x80]
  else if code < 0x10000 then Utf8.encodeChar char
  else
    Utf8.threeBytes (0xd800 + (code - 0x10000) / 1024)
      ++ Utf8.threeBytes (0xdc00 + (code - 0x10000) % 1024)

def encode (chars : List Char) : List UInt8 :=
  chars.flatMap encodeChar

end ModifiedUtf8

namespace StringData

def decode (bytes : List UInt8) : Except Utf8.Fault String :=
  match Utf8.decode bytes with
  | .ok chars => .ok (String.ofList chars)
  | .error fault =>
      match ModifiedUtf8.decode? bytes with
      | some chars => .ok (String.ofList chars)
      | none => .error fault

end StringData
end DexCensus
