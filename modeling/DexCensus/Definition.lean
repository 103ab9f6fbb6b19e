/-
The class definitions of all segments.

Discovery looks at one class definition after another: the segments in order,
and the definitions of each segment in table order.  A `Definition` is a class
definition together with the segment it stands in, so that what it refers to
can be read and errors can name the segment.
-/

import DexCensus.Dex.Resolution

namespace DexCensus

open Dex

/-- A class definition and its segment.  Segments are numbered from one. -/
structure Definition where
  segmentNumber : Nat
  segment : IndexedSegment
  classDef : ClassDef

namespace Definition

def ofSegment (segmentNumber : Nat) (segment : IndexedSegment) :
    List Definition :=
  segment.classDefs.toList.map fun classDef =>
    { segmentNumber := segmentNumber
      segment := segment
      classDef := classDef }

def ofSegmentsFrom : Nat → List IndexedSegment → List Definition
  | _, [] => []
  | first, segment :: rest =>
      ofSegment first segment ++ ofSegmentsFrom (first + 1) rest

/-- A definition stands at an entry of a segment's table and has the number of
that segment. -/
theorem mem_ofSegmentsFrom_iff {segments : List IndexedSegment} :
    ∀ {first : Nat} {definition : Definition},
      definition ∈ ofSegmentsFrom first segments ↔
        ∃ index, definition.segmentNumber = first + index ∧
          segments[index]? = some definition.segment ∧
          definition.classDef ∈ definition.segment.classDefs.toList := by
  induction segments with
  | nil => simp [ofSegmentsFrom]
  | cons segment rest ih =>
      intro first definition
      rw [ofSegmentsFrom, List.mem_append, ih]
      constructor
      · intro member
        rcases member with here | ⟨index, numbered, found, listed⟩
        · obtain ⟨classDef, listed, rfl⟩ := List.mem_map.mp here
          exact ⟨0, rfl, rfl, listed⟩
        · exact ⟨index + 1, by omega, found, listed⟩
      · rintro ⟨index, numbered, found, listed⟩
        cases index with
        | zero =>
            obtain ⟨segmentNumber, _, classDef⟩ := definition
            cases numbered
            cases found
            exact Or.inl (List.mem_map.mpr ⟨classDef, listed, rfl⟩)
        | succ index => exact Or.inr ⟨index, by omega, found, listed⟩

def ofSegments (segments : List IndexedSegment) : List Definition :=
  ofSegmentsFrom 1 segments

theorem ofSegmentsFrom_eq (first : Nat) (segments : List IndexedSegment) :
    ofSegmentsFrom first segments =
      (segments.zipIdx first).flatMap fun (segment, number) =>
        segment.classDefs.toList.map fun classDef =>
          { segmentNumber := number, segment := segment,
            classDef := classDef } := by
  induction segments generalizing first with
  | nil => rfl
  | cons segment rest ih =>
      rw [ofSegmentsFrom, ih, List.zipIdx_cons, List.flatMap_cons]
      rfl

def errorInSegment (definition : Definition) (error : DexError) : DexError :=
  error.inside (.ofSegment definition.segmentNumber)

def faultInClass (definition : Definition) (descriptor : String)
    (fault : Fault) : DexError :=
  definition.errorInSegment ((DexError.bare fault).inside (.ofClass descriptor))

end Definition

/-- The segments that some buffers hold, numbered from `first` on.  The first
buffer that holds no segment is the error. -/
def parseSegmentsFrom (first : Nat) (done : List IndexedSegment) :
    List Bytes → Except DexError (List IndexedSegment)
  | [] => .ok done.reverse
  | bytes :: rest =>
      match IndexedSegment.parse bytes with
      | .ok segment => parseSegmentsFrom (first + 1) (segment :: done) rest
      | .error fault =>
          .error ((DexError.bare fault).inside (.ofSegment first))

def parseSegments (buffers : List Bytes) :
    Except DexError (List IndexedSegment) :=
  parseSegmentsFrom 1 [] buffers

end DexCensus
