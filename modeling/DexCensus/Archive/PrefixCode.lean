/-
Reading bits, and prefix codes given by the lengths of their words.

The least significant bit of each byte comes first.  A position counts bits
from the start of the buffer; bits asked for behind the end say that the data
are incomplete.

Words are read bit by bit.  The words of a length are consecutive numbers in
the order of their symbols, and they follow the shorter words.  A code is
complete if every sequence of bits starts with a word.

Two incomplete codes are allowed: that without words, and that with a single
word of one bit.  There a bit that starts no word is a fault, which is told as
soon as the bit is read.
-/

import DexCensus.Archive.Fault
import DexCensus.Reader

namespace DexCensus

-- Powers of numbers are those of the core library, whatever else is imported.
attribute [local instance (high)] instPowNat

namespace Archive

/-- A value read from the bits, and the position of the next bit. -/
abbrev Step (α : Type) : Type := Except FileFault (α × Nat)

def bit (bytes : Bytes) (position : Nat) : Step Nat :=
  match bytes[position / 8]? with
  | some byte => .ok (byte.toNat / 2 ^ (position % 8) % 2, position + 1)
  | none => .error .incompleteDeflate

/-- A number of `count` bits, the least significant one first. -/
def bits (bytes : Bytes) : Nat → Nat → Step Nat
  | 0, position => .ok (0, position)
  | count + 1, position =>
      match bit bytes position with
      | .error fault => .error fault
      | .ok (low, next) =>
          match bits bytes count next with
          | .error fault => .error fault
          | .ok (high, last) => .ok (low + 2 * high, last)

def maximumLength : Nat :=
  15

/-- A complete code: how many words each length has, and the symbols in the
order of their words. -/
structure CompleteCode where
  counts : Array Nat
  symbols : Array Nat

namespace CompleteCode

def countOf (lengths : List Nat) (length : Nat) : Nat :=
  lengths.countP (· = length)

def symbolsOf (lengths : List Nat) (length : Nat) : List Nat :=
  (lengths.zipIdx.filter fun pair => pair.1 = length).map Prod.snd

/-- The code with a word of the given length for each symbol, and no word for
symbols of length zero. -/
def ofLengths (lengths : List Nat) : CompleteCode :=
  let range := List.range (maximumLength + 1)
  { counts := (range.map fun length =>
      if length = 0 then 0 else countOf lengths length).toArray
    symbols := (range.flatMap fun length =>
      if length = 0 then [] else symbolsOf lengths length).toArray }

def isFilledBy (lengths : List Nat) : Bool :=
  let used := lengths.filter (· ≠ 0)
  used.foldl (fun filled length => filled + 2 ^ (maximumLength - length)) 0
    = 2 ^ maximumLength

def ofLengths? (lengths : List Nat) : Except FileFault CompleteCode :=
  if isFilledBy lengths then .ok (ofLengths lengths)
  else .error .corruptDeflate

/-- Reading a word bit by bit.  `word` is what was read so far, `first` the
first word of its length and `index` the place of that word's symbol. -/
def symbolFrom (code : CompleteCode) (bytes : Bytes) :
    Nat → Nat → Nat → Nat → Nat → Step Nat
  | 0, _, _, _, _ => .error .corruptDeflate
  | left + 1, word, first, index, position =>
      match bit bytes position with
      | .error fault => .error fault
      | .ok (low, next) =>
          let word := 2 * word + low
          let count := code.counts.getD (maximumLength - left) 0
          if word < first + count then
            match code.symbols[index + (word - first)]? with
            | some symbol => .ok (symbol, next)
            | none => .error .corruptDeflate
          else
            symbolFrom code bytes left word (2 * (first + count))
              (index + count) next

def symbol (code : CompleteCode) (bytes : Bytes) (position : Nat) :
    Step Nat :=
  symbolFrom code bytes maximumLength 0 0 0 position

end CompleteCode

inductive PrefixCode where
  | empty
  | single (symbol : Nat)
  | complete (code : CompleteCode)

namespace PrefixCode

/-- The code for some lengths, each one at the place of its symbol; zero
stands for no word. -/
def ofLengths? (lengths : List Nat) : Except FileFault PrefixCode :=
  match lengths.zipIdx.filter fun pair => pair.1 ≠ 0 with
  | [] => .ok .empty
  | [(1, symbol)] => .ok (.single symbol)
  | _ => (CompleteCode.ofLengths? lengths).map .complete

def symbol (code : PrefixCode) (bytes : Bytes) (position : Nat) : Step Nat :=
  match code with
  | .complete code => code.symbol bytes position
  | .single symbol =>
      match bit bytes position with
      | .error fault => .error fault
      | .ok (low, next) =>
          if low = 0 then .ok (symbol, next) else .error .corruptDeflate
  | .empty =>
      match bit bytes position with
      | .error fault => .error fault
      | .ok _ => .error .corruptDeflate

end PrefixCode
end Archive
end DexCensus
