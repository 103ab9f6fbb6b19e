/-
JSON documents, their two renderings, and what a library for JSON decides.

The compact rendering has no blanks.  The indented one puts every element of
an array and every member of an object on a line of its own, two blanks deeper
than the brackets around it; an array or object without content is a pair of
brackets in both.

Members keep the order they are given in.  Text is escaped only where it has
to be: quotes, backslashes and controls.
-/

import DexCensus.Text.Quoted

namespace DexCensus

inductive Json where
  | null
  | bool (value : Bool)
  | number (digits : String)
  | text (value : String)
  | array (elements : List Json)
  | object (members : List (String × Json))

namespace Json

def integer (value : Int) : Json :=
  .number (toString value)

/-- A character between quotes.  The controls that have a short form use it,
the others show four hexadecimal digits. -/
def escape (char : Char) : List Char :=
  if char = '"' then ['\\', '"']
  else if char = '\\' then ['\\', '\\']
  else if char = '\n' then ['\\', 'n']
  else if char = '\r' then ['\\', 'r']
  else if char = '\t' then ['\\', 't']
  else if char.toNat = 8 then ['\\', 'b']
  else if char.toNat = 12 then ['\\', 'f']
  else if char.toNat < 32 then
    '\\' :: 'u' :: (Digits.paddedHexadecimal 4 char.toNat).toList
  else [char]

def quoted (value : String) : String :=
  "\"" ++ String.ofList (value.toList.flatMap escape) ++ "\""

/-! ### Rendering -/

-- A rendering is a list of pieces of text.  Each function puts its pieces in
-- front of `rest`, the pieces of what follows, so that no list is copied.

mutual

def compactPieces (rest : List String) : Json → List String
  | .null => "null" :: rest
  | .bool true => "true" :: rest
  | .bool false => "false" :: rest
  | .number digits => digits :: rest
  | .text value => quoted value :: rest
  | .array elements => "[" :: compactElements ("]" :: rest) elements
  | .object members => "\x7b" :: compactMembers ("\x7d" :: rest) members

def compactElements (rest : List String) : List Json → List String
  | [] => rest
  | [element] => compactPieces rest element
  | element :: others =>
      compactPieces ("," :: compactElements rest others) element

def compactMembers (rest : List String) : List (String × Json) → List String
  | [] => rest
  | [(name, value)] => quoted name :: ":" :: compactPieces rest value
  | (name, value) :: others =>
      quoted name :: ":"
        :: compactPieces ("," :: compactMembers rest others) value

end

def compact (document : Json) : String :=
  String.join (compactPieces [] document)

def newLine (depth : Nat) : String :=
  String.ofList ('\n' :: List.replicate (2 * depth) ' ')

mutual

def indentedPieces (depth : Nat) (rest : List String) : Json → List String
  | .null => "null" :: rest
  | .bool true => "true" :: rest
  | .bool false => "false" :: rest
  | .number digits => digits :: rest
  | .text value => quoted value :: rest
  | .array [] => "[]" :: rest
  | .array elements =>
      "[" :: indentedElements (depth + 1) (newLine depth :: "]" :: rest) elements
  | .object [] => "\x7b\x7d" :: rest
  | .object members =>
      "\x7b"
        :: indentedMembers (depth + 1) (newLine depth :: "\x7d" :: rest) members

def indentedElements (depth : Nat) (rest : List String) :
    List Json → List String
  | [] => rest
  | [element] => newLine depth :: indentedPieces depth rest element
  | element :: others =>
      newLine depth
        :: indentedPieces depth ("," :: indentedElements depth rest others)
          element

def indentedMembers (depth : Nat) (rest : List String) :
    List (String × Json) → List String
  | [] => rest
  | [(name, value)] =>
      newLine depth :: quoted name :: ": " :: indentedPieces depth rest value
  | (name, value) :: others =>
      newLine depth :: quoted name :: ": "
        :: indentedPieces depth ("," :: indentedMembers depth rest others)
          value

end

def pretty (document : Json) : String :=
  String.join (indentedPieces 0 [] document)

end Json

/-- What a program leaves to its library for JSON: how text and floating-point
numbers are written, and how a whole document is.  A number that has no text is
written as null. -/
structure Serializer where
  quoted : String → String
  single : UInt32 → Option String
  double : UInt64 → Option String
  pretty : Json → String

end DexCensus
