/-
Class descriptors, dotted class names and test names.

A class descriptor is `L`, a path with slashes, and `;`.  The dotted name of
the class is the path with dots.  A test name is a dotted class name and a
method name with a separator between them.

All three are handled as lists of characters, so that a name is exactly what
its characters say, whatever they are.
-/

import DexCensus.Fault

namespace DexCensus

namespace Descriptor

def dotted (char : Char) : Char :=
  if char = '/' then '.' else char

def path? : List Char → Option (List Char)
  | 'L' :: rest =>
      if rest.getLast? = some ';' then some rest.dropLast else none
  | _ => none

def className? (descriptor : String) : Option String :=
  (path? descriptor.toList).map fun path => String.ofList (path.map dotted)

def className (descriptor : String) : Except Fault String :=
  match className? descriptor with
  | some name => .ok name
  | none => .error (.notClassDescriptor descriptor)

end Descriptor

namespace TestName

def separator : Char :=
  '#'

def ofParts (className methodName : String) : String :=
  className ++ String.singleton separator ++ methodName

/-- What follows the first separator, or the whole name if it has none. -/
def methodPart (testName : String) : String :=
  match testName.toList.dropWhile (· ≠ separator) with
  | _ :: rest => String.ofList rest
  | [] => testName

/-- A class name without the separators it may end in. -/
def withoutTrailingSeparators (className : String) : String :=
  String.ofList
    (className.toList.reverse.dropWhile (· = separator)).reverse

end TestName
end DexCensus
