/-
The definitions of rearranged segments.

Rearranging puts the segments in another order and the class definitions
inside each one.  A definition then has another place and perhaps another
segment number, but the same class and a segment that says the same.
-/

import DexCensus.Proofs.Arrangement.Segment
import DexCensus.Proofs.Computation

namespace DexCensus

open Dex

/-- The same segments in another order, each one with its class definitions in
another order. -/
def Rearranged (left right : List IndexedSegment) : Prop :=
  ∃ middle, left.Perm middle ∧ List.Forall₂
    (fun before after => before.toSegment.Reordered after.toSegment) middle
    right

private theorem Rearranged.forward {left right : List IndexedSegment}
    (rearranged : Rearranged left right) :
    ∀ segment ∈ left, ∃ other ∈ right,
      segment.toSegment.Reordered other.toSegment := by
  obtain ⟨middle, perm, all⟩ := rearranged
  intro segment member
  exact exists_mem_of_forall₂ all segment (perm.mem_iff.mp member)

private theorem Rearranged.backward {left right : List IndexedSegment}
    (rearranged : Rearranged left right) :
    ∀ segment ∈ right, ∃ other ∈ left,
      other.toSegment.Reordered segment.toSegment := by
  obtain ⟨middle, perm, all⟩ := rearranged
  intro segment member
  obtain ⟨other, inMiddle, reordered⟩ :=
    exists_mem_of_forall₂ (List.Forall₂.flip all) segment member
  exact ⟨other, perm.mem_iff.mpr inMiddle, reordered⟩

namespace Definition

private theorem of_mem_ofSegmentsFrom {segments : List IndexedSegment}
    {first : Nat} {definition : Definition}
    (member : definition ∈ ofSegmentsFrom first segments) :
    definition.segment ∈ segments ∧
      definition.classDef ∈ definition.segment.classDefs.toList := by
  obtain ⟨index, _, found, listed⟩ := mem_ofSegmentsFrom_iff.mp member
  exact ⟨List.mem_of_getElem? found, listed⟩

private theorem exists_mem_ofSegmentsFrom {segments : List IndexedSegment}
    {segment : IndexedSegment} {classDef : ClassDef}
    (listed : classDef ∈ segment.classDefs.toList) (first : Nat)
    (member : segment ∈ segments) : ∃ segmentNumber,
      { segmentNumber := segmentNumber, segment := segment,
        classDef := classDef } ∈ ofSegmentsFrom first segments := by
  obtain ⟨index, found⟩ := List.getElem?_of_mem member
  exact ⟨first + index, mem_ofSegmentsFrom_iff.mpr ⟨index, rfl, found, listed⟩⟩

structure Alike (left right : Definition) : Prop where
  segment : left.segment.Alike right.segment
  classDef : right.classDef = left.classDef

variable {left right : Definition}

theorem Alike.symm (alike : Alike left right) : Alike right left :=
  { segment := alike.segment.symm
    classDef := alike.classDef.symm }

theorem Alike.trans {middle : Definition} (first : Alike left middle)
    (second : Alike middle right) : Alike left right :=
  { segment := first.segment.trans second.segment
    classDef := second.classDef.trans first.classDef }

theorem Alike.same {α : Type} (alike : Alike left right)
    (lookup : Segment → ClassDef → α)
    (ignores : ∀ segment classDefs,
      lookup (Segment.withClassDefs segment classDefs) = lookup segment) :
    lookup right.segment.toSegment right.classDef =
      lookup left.segment.toSegment left.classDef := by
  rw [alike.segment.reordered.same lookup ignores, alike.classDef]

end Definition

structure Correspond (left right : List Definition) : Prop where
  forward : ∀ definition ∈ left, ∃ other ∈ right, definition.Alike other
  backward : ∀ definition ∈ right, ∃ other ∈ left, definition.Alike other

namespace Correspond

variable {left right : List Definition}

theorem symm (correspond : Correspond left right) : Correspond right left :=
  { forward := correspond.backward
    backward := correspond.forward }

theorem filter (correspond : Correspond left right)
    (chosen : ClassDef → Bool) :
    Correspond (left.filter fun definition => chosen definition.classDef)
      (right.filter fun definition => chosen definition.classDef) := by
  have half {before after : List Definition}
      (related : ∀ definition ∈ before, ∃ other ∈ after,
        definition.Alike other) :
      ∀ definition ∈ before.filter fun definition =>
          chosen definition.classDef,
        ∃ other ∈ after.filter fun definition => chosen definition.classDef,
          definition.Alike other := by
    intro definition member
    obtain ⟨inBefore, isChosen⟩ := List.mem_filter.mp member
    obtain ⟨other, inAfter, alike⟩ := related definition inBefore
    refine ⟨other, List.mem_filter.mpr ⟨inAfter, ?_⟩, alike⟩
    rw [alike.classDef]
    exact isChosen
  exact ⟨half correspond.forward, half correspond.backward⟩

end Correspond

theorem Rearranged.correspond {left right : List IndexedSegment}
    (rearranged : Rearranged left right)
    (distinct : ∀ segment ∈ left, segment.toSegment.DistinctTypes) :
    Correspond (Definition.ofSegments left) (Definition.ofSegments right) := by
  constructor
  case forward =>
    intro definition member
    obtain ⟨inLeft, listed⟩ := Definition.of_mem_ofSegmentsFrom member
    obtain ⟨other, inRight, reordered⟩ :=
      rearranged.forward definition.segment inLeft
    obtain ⟨segmentNumber, found⟩ := Definition.exists_mem_ofSegmentsFrom
      (reordered.permuted.mem_iff.mp listed) 1 inRight
    have alike : definition.segment.Alike other :=
      { reordered := reordered, distinct := distinct _ inLeft }
    exact ⟨_, found, alike, rfl⟩
  case backward =>
    intro definition member
    obtain ⟨inRight, listed⟩ := Definition.of_mem_ofSegmentsFrom member
    obtain ⟨other, inLeft, reordered⟩ :=
      rearranged.backward definition.segment inRight
    obtain ⟨segmentNumber, found⟩ := Definition.exists_mem_ofSegmentsFrom
      (reordered.permuted.mem_iff.mpr listed) 1 inLeft
    have alike : other.Alike definition.segment :=
      { reordered := reordered, distinct := distinct other inLeft }
    exact ⟨_, found, alike.symm, rfl⟩

end DexCensus
