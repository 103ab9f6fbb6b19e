/-
A parsed segment and what can be looked up in it.

Parsing checks the header and that every table lies in the buffer; whatever
the tables point at is read when it is asked for.  A segment never changes, so
each lookup is a function of the segment and an index or a class definition.
-/

import DexCensus.Dex.AnnotationSet
import DexCensus.Dex.ClassData
import DexCensus.Dex.Header
import DexCensus.Dex.Table
import DexCensus.Text.ModifiedUtf8

namespace DexCensus
namespace Dex

/-- A table of `size` records of `recordSize` bytes each.  The whole table has
to lie in the buffer. -/
def tableAt {α : Type} (record : Reader α) (recordSize : Nat)
    (extent : Extent) (bytes : Bytes) : Except Fault (Array α) :=
  let offset := extent.offset.toNat
  let size := extent.size.toNat
  if offset + size * recordSize ≤ bytes.size then
    match (List.range size).mapM fun row =>
        record.valueAt bytes (offset + row * recordSize) with
    | .ok rows => .ok rows.toArray
    | .error fault => .error fault
  else .error (.tablePastEnd size recordSize offset)

/-- A segment: its header, its tables, and the buffer that all offsets point
into. -/
structure Segment where
  header : Header
  strings : Array UInt32
  types : Array UInt32
  prototypes : Array Prototype
  fields : Array Field
  methods : Array Method
  classDefs : Array ClassDef
  data : Bytes

namespace Segment

/-- The segment that a buffer holds.  The tables are checked in the order of
their pairs in the header. -/
def parse (bytes : Bytes) : Except Fault Segment := do
  let header ← Reader.header.valueAt bytes 0
  let strings ← tableAt Reader.u4 4 header.stringIds bytes
  let types ← tableAt Reader.u4 4 header.typeIds bytes
  let prototypes ← tableAt Reader.prototype 12 header.protoIds bytes
  let fields ← tableAt Reader.field 8 header.fieldIds bytes
  let methods ← tableAt Reader.method 8 header.methodIds bytes
  let classDefs ← tableAt Reader.classDef 32 header.classDefs bytes
  return {
    header := header
    strings := strings
    types := types
    prototypes := prototypes
    fields := fields
    methods := methods
    classDefs := classDefs
    data := bytes }

/-- The bytes of string data: a length in characters, which is not needed,
and the bytes before a zero byte. -/
def stringBytes : Reader (List UInt8) := do
  let _ ← Reader.uleb128
  Reader.untilZero

def entry {α : Type} (pool : Pool) (table : Array α) (index : UInt32) :
    Except Fault α :=
  match table[index.toNat]? with
  | some found => .ok found
  | none => .error (.indexOutOfRange pool index.toNat table.size)

def string (segment : Segment) (index : UInt32) : Except Fault String := do
  let offset ← entry .strings segment.strings index
  let bytes ← stringBytes.valueAt segment.data offset.toNat
  match StringData.decode bytes with
  | .ok text => .ok text
  | .error fault => .error (.badStringData fault)

def typeDescriptor (segment : Segment) (index : UInt32) :
    Except Fault String := do
  let descriptor ← entry .types segment.types index
  segment.string descriptor

def field (segment : Segment) (index : UInt32) : Except Fault Field :=
  entry .fields segment.fields index

def method (segment : Segment) (index : UInt32) : Except Fault Method :=
  entry .methods segment.methods index

def fieldName (segment : Segment) (index : UInt32) :
    Except Fault String := do
  let field ← segment.field index
  segment.string field.name

def methodName (segment : Segment) (index : UInt32) :
    Except Fault String := do
  let method ← segment.method index
  segment.string method.name

def classDescriptor (segment : Segment) (definition : ClassDef) :
    Except Fault String :=
  segment.typeDescriptor definition.classType

def superclassDescriptor? (segment : Segment) (definition : ClassDef) :
    Except Fault (Option String) :=
  match definition.superclass? with
  | none => .ok none
  | some type => do
      let descriptor ← segment.typeDescriptor type
      return some descriptor

def classData (segment : Segment) (definition : ClassDef) :
    Except Fault ClassData :=
  if definition.classDataOffset = 0 then .ok .empty
  else Reader.classData.valueAt segment.data definition.classDataOffset.toNat

def virtualMethodIndices (segment : Segment) (definition : ClassDef) :
    Except Fault (List UInt32) := do
  let members ← segment.classData definition
  return members.virtualMethodIndices

def directory? (segment : Segment) (definition : ClassDef) :
    Except Fault (Option Directory) :=
  if definition.hasDirectory then do
    let directory ← Reader.directory.valueAt segment.data
      definition.annotationsOffset.toNat
    return some directory
  else .ok none

end Segment
end Dex
end DexCensus
