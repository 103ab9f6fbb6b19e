/-
What the program prints about test methods.

The text report has one name per line.  The JSON report is a list of methods
with their annotations; a value is an object with its kind and its content,
and null has no content.  Numbers that are not finite have no JSON form and
become null.

The documents are the program's own.  How they are written is left to a
serializer, of which the program has a standard one.
-/

import DexCensus.Decimal.Shortest
import DexCensus.Json
import DexCensus.TestMethod

namespace DexCensus
namespace Report

inductive Format where
  | text
  | json
  deriving DecidableEq

def fileName : Format → String
  | .text => "AllTests.txt"
  | .json => "AllTests.json"

def lines (content : List String) : String :=
  String.join (content.map fun line => line ++ "\n")

def tagged (kind : String) (content : Json) : Json :=
  .object [("type", .text kind), ("value", content)]

def number (text : Option String) : Json :=
  match text with
  | some digits => .number digits
  | none => .null

end Report

namespace Serializer

open Report

variable (serializer : Serializer)

mutual

def ofValue : Value → Json
  | .byte value => tagged "byte" (.integer value.toInt)
  | .short value => tagged "short" (.integer value.toInt)
  | .char value => tagged "char" (.integer value.toNat)
  | .int value => tagged "int" (.integer value.toInt)
  | .long value => tagged "long" (.integer value.toInt)
  | .float bits => tagged "float" (number (serializer.single bits))
  | .double bits => tagged "double" (number (serializer.double bits))
  | .string text => tagged "string" (.text text)
  | .type descriptor => tagged "type" (.text descriptor)
  | .enum name => tagged "enum" (.text name)
  | .bool value => tagged "boolean" (.bool value)
  | .null => .object [("type", .text "null")]
  | .array values => tagged "array" (.array (ofValues values))
  | .nested name values =>
      tagged "annotation"
        (.object [("name", .text name), ("values", .object (ofNamed values))])

def ofValues : List Value → List Json
  | [] => []
  | value :: rest => ofValue value :: ofValues rest

def ofNamed : List (String × Value) → List (String × Json)
  | [] => []
  | (name, value) :: rest => (name, ofValue value) :: ofNamed rest

end

def ofEntry (entry : TestAnnotation) : Json :=
  .object [
    ("name", .text entry.name),
    ("values", .object (serializer.ofNamed entry.values)),
    ("inherited", .bool entry.inherited)]

def ofMethod (method : TestMethod) : Json :=
  .object [
    ("test_name", .text method.testName),
    ("annotations", .array (method.annotations.map serializer.ofEntry))]

def ofMethods (methods : List TestMethod) : Json :=
  .array (methods.map serializer.ofMethod)

def render (format : Format) (methods : List TestMethod) : String :=
  match format with
  | .text => lines (TestMethod.names methods)
  | .json => serializer.pretty (serializer.ofMethods methods) ++ "\n"

end Serializer

/-! ### The program's reports -/

namespace Report

/-- Single-precision numbers are written without an exponent from a millionth
up to thirteen digits before the point. -/
def singleStyle : Decimal.Style :=
  { leastPositional := -6, greatestPositional := 12 }

/-- Double-precision numbers are written without an exponent from a hundred
thousandth up to sixteen digits before the point. -/
def doubleStyle : Decimal.Style :=
  { leastPositional := -5, greatestPositional := 15 }

def standard : Serializer :=
  { quoted := Json.quoted
    single := fun bits =>
      Decimal.text? Decimal.single singleStyle bits.toNat
    double := fun bits =>
      Decimal.text? Decimal.double doubleStyle bits.toNat
    pretty := Json.pretty }

def ofValue (value : Value) : Json :=
  standard.ofValue value

def ofMethods (methods : List TestMethod) : Json :=
  standard.ofMethods methods

def render (format : Format) (methods : List TestMethod) : String :=
  standard.render format methods

end Report
end DexCensus
