/-
Strict and lossy reading of UTF-8.

A byte sequence is read one character at a time.  Where it breaks, the fault
tells how many bytes form the longest start of a well-formed character
(at least one), or that the input ended inside a character that was well
formed so far.  Lossy reading puts one replacement character in the place of
each such piece.

`encode` writes characters; `ModifiedUtf8` holds the other spelling of text that
string data may use.
-/

namespace DexCensus
namespace Utf8

def isContinuation (byte : UInt8) : Bool :=
  0x80 ≤ byte && byte ≤ 0xbf

/-- What stands at the front of a byte sequence.  Sizes count the bytes after
the first one. -/
inductive Front where
  | scalar (char : Char) (more : Nat)
  /-- Bytes that start no well-formed character together with what follows. -/
  | malformed (more : Nat)
  /-- The input ends inside a character that is well formed so far. -/
  | truncated
  deriving DecidableEq

/-- Bytes that may follow the lead byte of a three-byte character: no overlong
form and no surrogate. -/
def isSecondOfThree (lead second : UInt8) : Bool :=
  if lead = 0xe0 then 0xa0 ≤ second && second ≤ 0xbf
  else if lead = 0xed then 0x80 ≤ second && second ≤ 0x9f
  else isContinuation second

/-- Bytes that may follow the lead byte of a four-byte character: no overlong
form and nothing above the last code point. -/
def isSecondOfFour (lead second : UInt8) : Bool :=
  if lead = 0xf0 then 0x90 ≤ second && second ≤ 0xbf
  else if lead = 0xf4 then 0x80 ≤ second && second ≤ 0x8f
  else isContinuation second

def payload (byte : UInt8) : Nat :=
  byte.toNat % 64

def twoByte (lead second : UInt8) : Char :=
  Char.ofNat (lead.toNat % 32 * 64 + payload second)

def threeByte (lead second third : UInt8) : Char :=
  Char.ofNat (lead.toNat % 16 * 4096 + payload second * 64 + payload third)

def fourByte (lead second third fourth : UInt8) : Char :=
  Char.ofNat (lead.toNat % 8 * 262144 + payload second * 4096
    + payload third * 64 + payload fourth)

def front (lead : UInt8) (rest : List UInt8) : Front :=
  if lead < 0x80 then .scalar (Char.ofNat lead.toNat) 0
  else if lead < 0xc2 then .malformed 0
  else if lead < 0xe0 then
    match rest with
    | [] => .truncated
    | second :: _ =>
        if isContinuation second then .scalar (twoByte lead second) 1
        else .malformed 0
  else if lead < 0xf0 then
    match rest with
    | [] => .truncated
    | second :: rest =>
        if isSecondOfThree lead second then
          match rest with
          | [] => .truncated
          | third :: _ =>
              if isContinuation third then
                .scalar (threeByte lead second third) 2
              else .malformed 1
        else .malformed 0
  else if lead < 0xf5 then
    match rest with
    | [] => .truncated
    | second :: rest =>
        if isSecondOfFour lead second then
          match rest with
          | [] => .truncated
          | third :: rest =>
              if isContinuation third then
                match rest with
                | [] => .truncated
                | fourth :: _ =>
                    if isContinuation fourth then
                      .scalar (fourByte lead second third fourth) 3
                    else .malformed 2
              else .malformed 1
        else .malformed 0
  else .malformed 0

/-- Why a byte sequence is not UTF-8, with the position of the first byte that
does not fit in. -/
inductive Fault where
  | invalid (size position : Nat)
  | incomplete (position : Nat)
  deriving DecidableEq

def Fault.message : Fault → String
  | .invalid size position =>
      s!"invalid utf-8 sequence of {size} bytes from index {position}"
  | .incomplete position =>
      s!"incomplete utf-8 byte sequence from index {position}"

/-- Strict reading from `position` on; `done` holds the characters before it,
the last one first. -/
def decodeFrom (position : Nat) (done : List Char) :
    List UInt8 → Except Fault (List Char)
  | [] => .ok done.reverse
  | lead :: rest =>
      match front lead rest with
      | .scalar char more =>
          decodeFrom (position + more + 1) (char :: done) (rest.drop more)
      | .malformed more => .error (.invalid (more + 1) position)
      | .truncated => .error (.incomplete position)
termination_by bytes => bytes.length
decreasing_by
  simp only [List.length_drop, List.length_cons]
  omega

def decode (bytes : List UInt8) : Except Fault (List Char) :=
  decodeFrom 0 [] bytes

/-- Lossy reading; `done` holds the characters so far, the last one first. -/
def decodeLossyFrom (done : List Char) : List UInt8 → List Char
  | [] => done.reverse
  | lead :: rest =>
      match front lead rest with
      | .scalar char more => decodeLossyFrom (char :: done) (rest.drop more)
      | .malformed more => decodeLossyFrom ('\ufffd' :: done) (rest.drop more)
      | .truncated => ('\ufffd' :: done).reverse
termination_by bytes => bytes.length
decreasing_by
  all_goals
    simp only [List.length_drop, List.length_cons]
    omega

/-- The characters of a byte sequence, with one replacement character for each
piece that is not UTF-8. -/
def decodeLossy (bytes : List UInt8) : List Char :=
  decodeLossyFrom [] bytes

/-! ### Writing -/

def continuation (value : Nat) : UInt8 :=
  UInt8.ofNat (128 + value % 64)

def twoBytes (code : Nat) : List UInt8 :=
  [UInt8.ofNat (192 + code / 64), continuation code]

def threeBytes (code : Nat) : List UInt8 :=
  [UInt8.ofNat (224 + code / 4096), continuation (code / 64),
    continuation code]

def fourBytes (code : Nat) : List UInt8 :=
  [UInt8.ofNat (240 + code / 262144), continuation (code / 4096),
    continuation (code / 64), continuation code]

def encodeChar (char : Char) : List UInt8 :=
  let code := char.toNat
  if code < 0x80 then [UInt8.ofNat code]
  else if code < 0x800 then twoBytes code
  else if code < 0x10000 then threeBytes code
  else fourBytes code

def encode (chars : List Char) : List UInt8 :=
  chars.flatMap encodeChar

end Utf8
end DexCensus
