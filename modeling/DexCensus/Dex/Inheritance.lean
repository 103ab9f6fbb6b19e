/-
Annotation types that subclasses inherit.

An annotation type is inherited if the segment defines it and its own class
carries the marker annotation.  The check looks at one class only; markers on
markers do not count.

Two lookups are needed for every annotation of a segment: the index of the
marker's type, and the definition of a type.  An `IndexedSegment` carries
both, computed at most once and only when asked for, together with the facts
that they are what a search through the tables finds.
-/

import DexCensus.Dex.Segment
import Std.Data.HashMap

namespace DexCensus
namespace Dex

def inheritedDescriptor : String :=
  "Ljava/lang/annotation/Inherited;"

namespace Segment

/-- The first of some type indices whose descriptor is that of the marker.  A
descriptor that cannot be read stops the search. -/
def markerAmong (segment : Segment) : List Nat → Except Fault (Option UInt32)
  | [] => .ok none
  | index :: rest =>
      match segment.typeDescriptor (UInt32.ofNat index) with
      | .error fault => .error fault
      | .ok descriptor =>
          if descriptor = inheritedDescriptor then
            .ok (some (UInt32.ofNat index))
          else segment.markerAmong rest

def inheritedMarker (segment : Segment) : Except Fault (Option UInt32) :=
  segment.markerAmong (List.range segment.types.size)

def lastDefinition (definitions : List ClassDef) (type : UInt32) :
    Option ClassDef :=
  definitions.reverse.find? fun definition => definition.classType == type

/-- The class definition of a type, if the segment has one.  Of several the
last one counts. -/
def definitionOf? (segment : Segment) (type : UInt32) : Option ClassDef :=
  lastDefinition segment.classDefs.toList type

end Segment

/-! ### The same lookups by key -/

def definitionsByType (definitions : List ClassDef)
    (known : Std.HashMap UInt32 ClassDef) : Std.HashMap UInt32 ClassDef :=
  definitions.foldl
    (fun known definition => known.insert definition.classType definition)
    known

private theorem getElem?_definitionsByType (definitions : List ClassDef)
    (known : Std.HashMap UInt32 ClassDef) (type : UInt32) :
    (definitionsByType definitions known)[type]? =
      (Segment.lastDefinition definitions type).or known[type]? := by
  induction definitions generalizing known with
  | nil => simp [definitionsByType, Segment.lastDefinition]
  | cons definition rest ih =>
      have recur := ih (known.insert definition.classType definition)
      simp only [definitionsByType, List.foldl_cons] at recur ⊢
      rw [recur, Std.HashMap.getElem?_insert]
      simp only [Segment.lastDefinition, List.reverse_cons, List.find?_append,
        List.find?_cons, List.find?_nil]
      cases rest.reverse.find? fun later => later.classType == type with
      | some later => simp
      | none =>
          by_cases same : definition.classType == type <;> simp [same]

/-- A segment with the two lookups that its annotations need. -/
structure IndexedSegment extends Segment where
  marker : Thunk (Except Fault (Option UInt32))
  marker_get : marker.get = toSegment.inheritedMarker
  definitions : Thunk (Std.HashMap UInt32 ClassDef)
  definitions_get : ∀ type,
    definitions.get[type]? = toSegment.definitionOf? type

/-- A segment with its lookups, none of them computed yet. -/
def Segment.indexed (segment : Segment) : IndexedSegment :=
  { toSegment := segment
    marker := Thunk.mk fun _ => segment.inheritedMarker
    marker_get := rfl
    definitions := Thunk.mk fun _ =>
      definitionsByType segment.classDefs.toList ∅
    definitions_get := by
      intro type
      change (definitionsByType segment.classDefs.toList ∅)[type]? = _
      rw [getElem?_definitionsByType]
      simp [Segment.definitionOf?] }

namespace IndexedSegment

def parse (bytes : Bytes) : Except Fault IndexedSegment := do
  let segment ← Segment.parse bytes
  return segment.indexed

def carries (segment : IndexedSegment) (definition : ClassDef)
    (type : UInt32) : Except Fault Bool := do
  match ← segment.directory? definition with
  | none => return false
  | some directory =>
      let items ← itemsAt segment.data directory.classOffset
      return items.any fun item => item.payload.type == type

def isInherited (segment : IndexedSegment) (type : UInt32) :
    Except Fault Bool := do
  match ← segment.marker.get with
  | none => return false
  | some marker =>
      match segment.definitions.get[type]? with
      | none => return false
      | some definition => segment.carries definition marker

end IndexedSegment
end Dex
end DexCensus
