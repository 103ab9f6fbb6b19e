/-
Decompression of deflated data.

The data are blocks of bits.  A block is stored as it is, or it is a sequence
of symbols of a fixed code or of a code that the block describes: single
bytes, copies of earlier output, and the end of the block.  Zeros stand in
front of the output, so a copy may reach back behind its start.  What follows
the last block is not looked at.

Every symbol takes at least one bit and every block at least three, so the
number of bits bounds both loops.
-/

import DexCensus.Archive.PrefixCode

namespace DexCensus
namespace Archive
namespace Inflate

/-- The shortest copy of each length symbol, and its number of extra bits. -/
def lengthTable : Array (Nat × Nat) :=
  #[(3, 0), (4, 0), (5, 0), (6, 0), (7, 0), (8, 0), (9, 0), (10, 0), (11, 1),
    (13, 1), (15, 1), (17, 1), (19, 2), (23, 2), (27, 2), (31, 2), (35, 3),
    (43, 3), (51, 3), (59, 3), (67, 4), (83, 4), (99, 4), (115, 4), (131, 5),
    (163, 5), (195, 5), (227, 5), (258, 0)]

/-- The nearest distance of each distance symbol, and its number of extra
bits. -/
def distanceTable : Array (Nat × Nat) :=
  #[(1, 0), (2, 0), (3, 0), (4, 0), (5, 1), (7, 1), (9, 2), (13, 2), (17, 3),
    (25, 3), (33, 4), (49, 4), (65, 5), (97, 5), (129, 6), (193, 6), (257, 7),
    (385, 7), (513, 8), (769, 8), (1025, 9), (1537, 9), (2049, 10), (3073, 10),
    (4097, 11), (6145, 11), (8193, 12), (12289, 12), (16385, 13), (24577, 13)]

def lengthOrder : List Nat :=
  [16, 17, 18, 0, 8, 7, 9, 6, 10, 5, 11, 4, 12, 3, 13, 2, 14, 1, 15]

def fixedLiterals : PrefixCode :=
  .complete (CompleteCode.ofLengths
    (List.replicate 144 8 ++ List.replicate 112 9 ++ List.replicate 24 7
      ++ List.replicate 8 8))

def fixedDistances : PrefixCode :=
  .complete (CompleteCode.ofLengths (List.replicate 32 5))

/-! ### Blocks -/

/-- A number that a symbol stands for, by a table: the base and the value of
the extra bits. -/
def extended (table : Array (Nat × Nat)) (bytes : Bytes)
    (symbol position : Nat) : Step Nat :=
  match table[symbol]? with
  | none => .error .corruptDeflate
  | some (base, extra) =>
      match bits bytes extra position with
      | .error fault => .error fault
      | .ok (value, next) => .ok (base + value, next)

/-- The byte `distance` places before the end of the output, or zero if the
output is shorter. -/
def byteBack (output : Bytes) (distance : Nat) : UInt8 :=
  if output.size < distance then 0
  else output.getD (output.size - distance) 0

/-- Output with `length` bytes more, each one a copy of the byte `distance`
places before it. -/
def copyBack (distance : Nat) : Nat → Bytes → Bytes
  | 0, output => output
  | length + 1, output =>
      copyBack distance length (output.push (byteBack output distance))

def copied (distances : PrefixCode) (bytes output : Bytes)
    (lengthSymbol position : Nat) : Step Bytes :=
  match extended lengthTable bytes lengthSymbol position with
  | .error fault => .error fault
  | .ok (length, next) =>
      match distances.symbol bytes next with
      | .error fault => .error fault
      | .ok (distanceSymbol, next) =>
          match extended distanceTable bytes distanceSymbol next with
          | .error fault => .error fault
          | .ok (distance, next) =>
              .ok (copyBack distance length output, next)

/-- Symbols up to the end of the block, at most `limit` of them. -/
def symbols (literals distances : PrefixCode) (bytes : Bytes) :
    Nat → Bytes → Nat → Step Bytes
  | 0, _, _ => .error .incompleteDeflate
  | limit + 1, output, position =>
      match literals.symbol bytes position with
      | .error fault => .error fault
      | .ok (found, next) =>
          if found < 256 then
            symbols literals distances bytes limit
              (output.push (UInt8.ofNat found)) next
          else if found = 256 then .ok (output, next)
          else
            match copied distances bytes output (found - 257) next with
            | .error fault => .error fault
            | .ok (output, next) =>
                symbols literals distances bytes limit output next

/-- A stored block, from the next whole byte on: its length, the complement of
it, and the bytes. -/
def stored (bytes output : Bytes) (position : Nat) : Step Bytes :=
  let start := (position + 7) / 8
  if bytes.size < start + 4 then .error .incompleteDeflate
  else
    let length := LittleEndian.number (bytes.window start 2)
    let complement := LittleEndian.number (bytes.window (start + 2) 2)
    if length + complement ≠ 0xffff then .error .corruptDeflate
    else if bytes.size < start + 4 + length then .error .incompleteDeflate
    else
      .ok (output ++ bytes.extract (start + 4) (start + 4 + length),
        8 * (start + 4 + length))

def lengthCodeLengths (bytes : Bytes) : Nat → Nat → Step (List Nat)
  | 0, position => .ok ([], position)
  | count + 1, position =>
      match bits bytes 3 position with
      | .error fault => .error fault
      | .ok (length, next) =>
          match lengthCodeLengths bytes count next with
          | .error fault => .error fault
          | .ok (rest, next) => .ok (length :: rest, next)

/-- How many places a length symbol above fifteen fills, and with what.
`previous` is the length before them, if there is one. -/
def repetition (bytes : Bytes) (symbol : Nat) (previous : Option Nat)
    (position : Nat) : Step (Nat × Nat) :=
  if symbol = 16 then
    match previous with
    | none => .error .corruptDeflate
    | some length =>
        match bits bytes 2 position with
        | .error fault => .error fault
        | .ok (value, next) => .ok ((value + 3, length), next)
  else if symbol = 17 then
    match bits bytes 3 position with
    | .error fault => .error fault
    | .ok (value, next) => .ok ((value + 3, 0), next)
  else
    match bits bytes 7 position with
    | .error fault => .error fault
    | .ok (value, next) => .ok ((value + 11, 0), next)

/-- The lengths of a described code, `total` of them, read with at most
`limit` symbols.  `done` holds those read so far, the last one first. -/
def describedLengths (code : CompleteCode) (bytes : Bytes) (total : Nat) :
    Nat → List Nat → Nat → Step (List Nat)
  | 0, done, position => .ok (done.reverse, position)
  | limit + 1, done, position =>
      if total ≤ done.length then
        if done.length = total then .ok (done.reverse, position)
        else .error .corruptDeflate
      else
        match code.symbol bytes position with
        | .error fault => .error fault
        | .ok (found, next) =>
            if found < 16 then
              describedLengths code bytes total limit (found :: done) next
            else
              match repetition bytes found done.head? next with
              | .error fault => .error fault
              | .ok ((count, length), next) =>
                  describedLengths code bytes total limit
                    (List.replicate count length ++ done) next

def sortedLengths (given : List Nat) : List Nat :=
  (List.range 19).map fun symbol =>
    (((lengthOrder.zip given).find? fun pair => pair.1 = symbol).map
      Prod.snd).getD 0

def describedCodes (bytes : Bytes) (position : Nat) :
    Except FileFault ((PrefixCode × PrefixCode) × Nat) := do
  let (literalCount, position) ← bits bytes 5 position
  let (distanceCount, position) ← bits bytes 5 position
  let (lengthCount, position) ← bits bytes 4 position
  let literalCount := literalCount + 257
  let distanceCount := distanceCount + 1
  if 286 < literalCount ∨ 30 < distanceCount then .error .corruptDeflate
  else
    let (given, position) ← lengthCodeLengths bytes (lengthCount + 4) position
    let lengthCode ← CompleteCode.ofLengths? (sortedLengths given)
    let total := literalCount + distanceCount
    let (lengths, position) ←
      describedLengths lengthCode bytes total (total + 1) [] position
    let literals ← PrefixCode.ofLengths? (lengths.take literalCount)
    let distances ← PrefixCode.ofLengths? (lengths.drop literalCount)
    return ((literals, distances), position)

def block (bytes output : Bytes) (limit kind position : Nat) : Step Bytes :=
  match kind with
  | 0 => stored bytes output position
  | 1 =>
      symbols fixedLiterals fixedDistances bytes limit output position
  | 2 =>
      match describedCodes bytes position with
      | .error fault => .error fault
      | .ok ((literals, distances), next) =>
          symbols literals distances bytes limit output next
  | _ => .error .corruptDeflate

/-- Blocks up to the last one, at most `left` of them. -/
def blocks (bytes : Bytes) (limit : Nat) :
    Nat → Bytes → Nat → Except FileFault Bytes
  | 0, _, _ => .error .incompleteDeflate
  | left + 1, output, position =>
      match bits bytes 1 position with
      | .error fault => .error fault
      | .ok (isLast, next) =>
          match bits bytes 2 next with
          | .error fault => .error fault
          | .ok (kind, next) =>
              match block bytes output limit kind next with
              | .error fault => .error fault
              | .ok (output, next) =>
                  if isLast = 1 then .ok output
                  else blocks bytes limit left output next

end Inflate

def inflate (bytes : Bytes) : Except FileFault Bytes :=
  let bitCount := 8 * bytes.size
  Inflate.blocks bytes (bitCount + 1) (bitCount + 1) #[] 0

end Archive
end DexCensus
