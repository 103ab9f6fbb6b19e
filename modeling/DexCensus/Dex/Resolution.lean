/-
Annotations with their references resolved.

A value is resolved from the outside in and from left to right, and the first
reference that cannot be resolved is the fault.  The name of an element is
resolved before its value.  Values that refer to fields, methods, prototypes
and method handles have no text and become null.
-/

import DexCensus.Descriptor
import DexCensus.Dex.Inheritance
import DexCensus.TestMethod

namespace DexCensus
namespace Dex

namespace Segment

def className (segment : Segment) (type : UInt32) : Except Fault String := do
  let descriptor ← segment.typeDescriptor type
  Descriptor.className descriptor

mutual

def resolve (segment : Segment) : EncodedValue → Except Fault Value
  | .byte value => .ok (.byte value)
  | .short value => .ok (.short value)
  | .char value => .ok (.char value)
  | .int value => .ok (.int value)
  | .long value => .ok (.long value)
  | .float bits => .ok (.float bits)
  | .double bits => .ok (.double bits)
  | .string index => do return .string (← segment.string index)
  | .type index => do return .type (← segment.typeDescriptor index)
  | .enum index => do return .enum (← segment.fieldName index)
  | .bool value => .ok (.bool value)
  | .array values => do return .array (← segment.resolveList values)
  | .nested type elements => do
      let name ← segment.className type
      let pairs ← segment.resolveElements elements
      return .nested name (NamedValues.ofPairs pairs)
  | .null | .methodType _ | .methodHandle _ | .field _ | .method _ =>
      .ok .null

def resolveList (segment : Segment) :
    List EncodedValue → Except Fault (List Value)
  | [] => .ok []
  | value :: rest => do
      let resolved ← segment.resolve value
      let others ← segment.resolveList rest
      return resolved :: others

def resolveElements (segment : Segment) :
    List (UInt32 × EncodedValue) → Except Fault (List (String × Value))
  | [] => .ok []
  | (nameIndex, value) :: rest => do
      let name ← segment.string nameIndex
      let resolved ← segment.resolve value
      let others ← segment.resolveElements rest
      return (name, resolved) :: others

end
end Segment

namespace IndexedSegment

def resolveItem (segment : IndexedSegment) (item : Item) :
    Except Fault TestAnnotation := do
  let name ← segment.className item.payload.type
  let pairs ← segment.resolveElements item.payload.elements
  let inherited ← segment.isInherited item.payload.type
  return {
    name := name
    values := NamedValues.ofPairs pairs
    inherited := inherited }

def annotationsAt (segment : IndexedSegment) (offset : UInt32) :
    Except Fault (List TestAnnotation) := do
  let items ← itemsAt segment.data offset
  items.mapM segment.resolveItem

def classAnnotations (segment : IndexedSegment)
    (directory : Option Directory) : Except Fault (List TestAnnotation) :=
  match directory with
  | some directory => segment.annotationsAt directory.classOffset
  | none => .ok []

def methodAnnotations (segment : IndexedSegment) (method : UInt32)
    (directory : Option Directory) : Except Fault (List TestAnnotation) :=
  match directory with
  | none => .ok []
  | some directory =>
      match directory.methodOffset? method with
      | some offset => segment.annotationsAt offset
      | none => .ok []

end IndexedSegment
end Dex
end DexCensus
