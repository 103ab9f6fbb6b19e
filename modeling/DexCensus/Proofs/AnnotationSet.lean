/-
Directories, sets and items are read as they are laid out.

A directory is laid out as the offset of the class's set, three counts and
three lists of pairs; a set as a count and that many offsets.  Just these bytes
are read as the directory and as the offsets, and the reading ends behind them.
The items of a set are then read one by one, each at its own offset in the
buffer, whatever the offsets are: they may come in any order, be repeated, and
point into each other's items.  Zero stands for no item.
-/

import DexCensus.Proofs.EncodedValue.Grammar
import DexCensus.Proofs.JUnit4.OwnTests

namespace DexCensus

-- Powers of numbers are those of the core library, whatever else is imported.
attribute [local instance (high)] instPowNat

namespace Dex

structure Directory.CountsFit (directory : Directory) : Prop where
  fields : directory.fields.length < UInt32.size
  methods : directory.methods.length < UInt32.size
  parameters : directory.parameters.length < UInt32.size

/-- A set as it is laid out: how many offsets it has, then the offsets. -/
def setBytes (offsets : List UInt32) : List UInt8 :=
  wordBytes offsets.length ++ offsets.flatMap fun entry => wordBytes entry.toNat

structure HoldsSet (bytes : Bytes) (offset : UInt32)
    (offsets : List UInt32) : Prop where
  stands : setBytes offsets <+: bytes.toList.drop offset.toNat
  countFits : offsets.length < UInt32.size

end Dex

namespace Grammar

variable {α : Type}

private theorem sequence_of_written_iff {write : α → List UInt8}
    (values : List α)
    (written : List UInt8) :
    Sequence (fun value written => written = write value) values written ↔
      written = values.flatMap write := by
  induction values generalizing written with
  | nil => exact sequence_nil_iff written
  | cons value rest ih =>
      rw [sequence_cons_iff, List.flatMap_cons]
      constructor
      · intro ⟨front, back, split, isFirst, others⟩
        rw [split, isFirst, (ih back).mp others]
      · intro whole
        exact ⟨_, _, whole, rfl, (ih _).mpr rfl⟩

end Grammar

namespace Reader

open Dex Grammar

variable {bytes : Bytes} {start : Nat}

private theorem eq_wordBytes_iff (value : UInt32) (written : List UInt8) :
    written = wordBytes value.toNat ↔
      value.toNat = LittleEndian.number written ∧ written.length = 4 := by
  have fits : value.toNat % 256 ^ 4 = value.toNat :=
    Nat.mod_eq_of_lt value.toNat_lt
  constructor
  · intro same
    rw [same, wordBytes, LittleEndian.number_bytes, fits,
      LittleEndian.length_bytes]
    exact ⟨rfl, rfl⟩
  · intro ⟨sameNumber, length⟩
    apply number_injective
    · rw [length, wordBytes, LittleEndian.length_bytes]
    · rw [← sameNumber, wordBytes, LittleEndian.number_bytes, fits]

theorem exact_word :
    Exact bytes start u4
      (fun found written => written = wordBytes found.toNat) :=
  exact_u4.congr fun found written => (eq_wordBytes_iff found written).symm

theorem exact_entries {α : Type} {reader : Reader α} {write : α → List UInt8}
    (exact : Exact bytes start reader
      (fun found written => written = write found)) (size : UInt32) :
    Exact bytes start (replicate reader size.toNat)
      (fun found written => found.length = size.toNat ∧
        written = found.flatMap write) := by
  refine (exact.replicate size.toNat).congr ?_
  intro found written
  exact and_congr_right fun _ => sequence_of_written_iff found written

theorem exact_itemOffsets :
    Exact bytes start itemOffsets
      (fun found written => found.length < UInt32.size ∧
        written = setBytes found) := by
  refine (exact_word.andThen fun size => exact_entries exact_word size).congr ?_
  intro found written
  constructor
  · intro ⟨size, front, back, split, isCount, counted, entries⟩
    rw [split, isCount, entries, setBytes, counted]
    exact ⟨size.toNat_lt, rfl⟩
  · intro ⟨fits, whole⟩
    have counted := (UInt32.toNat_ofNat_of_lt' fits).symm
    exact ⟨UInt32.ofNat found.length, _, _, counted ▸ whole, rfl, counted, rfl⟩

theorem exact_attachment :
    Exact bytes start attachment
      (fun found written => written = found.bytes) := by
  refine (exact_word.andThen fun member => exact_word.andThen fun offset =>
    exact_succeed (Attachment.mk member offset)).congr ?_
  intro found written
  constructor
  · intro ⟨member, front, _, split, isMember, offset, back, rest,
      splitAgain, isOffset, same, nothing⟩
    rw [split, splitAgain, isMember, isOffset, nothing, List.append_nil, same]
    rfl
  · intro whole
    exact ⟨found.member, _, _, whole, rfl, found.offset, _, [],
      (List.append_nil _).symm, rfl, rfl, rfl⟩

theorem exact_directory :
    Exact bytes start directory
      (fun found written => found.CountsFit ∧ written = found.bytes) := by
  refine (exact_word.andThen fun classOffset =>
    exact_word.andThen fun fieldsSize =>
      exact_word.andThen fun methodsSize =>
        exact_word.andThen fun parametersSize =>
          (exact_entries exact_attachment fieldsSize).andThen fun fields =>
            (exact_entries exact_attachment methodsSize).andThen fun methods =>
              (exact_entries exact_attachment parametersSize).andThen
                fun parameters => exact_succeed (Directory.mk classOffset
                  fields methods parameters)).congr ?_
  intro found written
  constructor
  · intro ⟨classOffset, _, _, first, rfl, fieldsSize, _, _, second, rfl,
      methodsSize, _, _, third, rfl, parametersSize, _, _, fourth, rfl,
      fields, _, _, fifth, ⟨fieldsCounted, rfl⟩,
      methods, _, _, sixth, ⟨methodsCounted, rfl⟩,
      parameters, _, _, seventh, ⟨parametersCounted, rfl⟩, same, nothing⟩
    subst same nothing seventh sixth fifth fourth third second first
    refine ⟨⟨fieldsCounted ▸ fieldsSize.toNat_lt,
      methodsCounted ▸ methodsSize.toNat_lt,
      parametersCounted ▸ parametersSize.toNat_lt⟩, ?_⟩
    simp only [Directory.bytes, fieldsCounted, methodsCounted,
      parametersCounted, List.append_assoc, List.append_nil]
  · intro ⟨fits, whole⟩
    have fieldsCounted := (UInt32.toNat_ofNat_of_lt' fits.fields).symm
    have methodsCounted := (UInt32.toNat_ofNat_of_lt' fits.methods).symm
    have parametersCounted := (UInt32.toNat_ofNat_of_lt' fits.parameters).symm
    refine ⟨found.classOffset, _, _, ?_, rfl,
      UInt32.ofNat found.fields.length, _, _, rfl, rfl,
      UInt32.ofNat found.methods.length, _, _, rfl, rfl,
      UInt32.ofNat found.parameters.length, _, _, rfl, rfl,
      found.fields, _, _, rfl, ⟨fieldsCounted, rfl⟩,
      found.methods, _, _, rfl, ⟨methodsCounted, rfl⟩,
      found.parameters, _, [], rfl, ⟨parametersCounted, rfl⟩, rfl, rfl⟩
    rw [← fieldsCounted, ← methodsCounted, ← parametersCounted, whole]
    simp only [Directory.bytes, List.append_assoc, List.append_nil]

theorem directory_eq_ok_iff (bytes : Bytes) (start : Nat)
    (found : Directory) (last : Nat) :
    directory bytes start = .ok (found, last) ↔
      found.CountsFit ∧ found.bytes <+: bytes.toList.drop start ∧
        last = start + found.bytes.length := by
  rw [exact_directory start (Nat.le_refl _) found last]
  constructor
  · intro ⟨written, stands, ends, fits, whole⟩
    subst whole
    exact ⟨fits, stands, ends⟩
  · intro ⟨fits, stands, ends⟩
    exact ⟨_, stands, ends, fits, rfl⟩

theorem itemOffsets_eq_ok_iff (bytes : Bytes) (offset : UInt32)
    (offsets : List UInt32) :
    itemOffsets.valueAt bytes offset.toNat = .ok offsets ↔
      HoldsSet bytes offset offsets := by
  rw [valueAt_eq_ok_iff]
  simp only [exact_itemOffsets offset.toNat (Nat.le_refl _)]
  constructor
  · intro ⟨_, written, stands, _, fits, whole⟩
    exact { stands := whole ▸ stands, countFits := fits }
  · intro holds
    exact ⟨_, _, holds.stands, rfl, holds.countFits, rfl⟩

end Reader

namespace Dex

variable {bytes : Bytes} {offset : UInt32} {offsets : List UInt32}

theorem itemsAt_of_holdsSet (present : offset ≠ 0)
    (holds : HoldsSet bytes offset offsets) :
    itemsAt bytes offset =
      (offsets.filter fun entry => entry ≠ 0).mapM fun entry =>
        Reader.item.valueAt bytes entry.toNat := by
  rw [itemsAt, if_neg present,
    (Reader.itemOffsets_eq_ok_iff bytes offset offsets).mpr holds]

private theorem itemsAt_of_no_set (present : offset ≠ 0)
    (noSet : ∀ offsets, ¬ HoldsSet bytes offset offsets) :
    ∃ fault, Reader.itemOffsets.valueAt bytes offset.toNat = .error fault ∧
      itemsAt bytes offset = .error fault := by
  cases read : Reader.itemOffsets.valueAt bytes offset.toNat with
  | ok offsets =>
      exact (noSet offsets
        ((Reader.itemOffsets_eq_ok_iff bytes offset offsets).mp read)).elim
  | error fault =>
      refine ⟨fault, rfl, ?_⟩
      rw [itemsAt, if_neg present, read]

/-- The first entry of a set that is not zero and whose item cannot be read,
with the fault of that item. -/
def FirstUnreadable (bytes : Bytes) (offsets : List UInt32) (fault : Fault) :
    Prop :=
  ∃ before entry after, offsets = before ++ entry :: after ∧
    (∀ earlier ∈ before, earlier ≠ 0 →
      ∃ item, Reader.item.valueAt bytes earlier.toNat = .ok item) ∧
    entry ≠ 0 ∧ Reader.item.valueAt bytes entry.toNat = .error fault

theorem itemsAt_eq_error_iff (present : offset ≠ 0)
    (holds : HoldsSet bytes offset offsets) (fault : Fault) :
    itemsAt bytes offset = .error fault ↔
      FirstUnreadable bytes offsets fault := by
  rw [itemsAt_of_holdsSet present holds, mapM_eq_error_iff]
  constructor
  · intro ⟨before, entry, after, split, readable, unreadable⟩
    obtain ⟨front, back, whole, frontFiltered, backFiltered⟩ :=
      List.filter_eq_append_iff.mp split
    obtain ⟨zeros, rest, backWhole, allZero, notZero, _⟩ :=
      List.filter_eq_cons_iff.mp backFiltered
    refine ⟨front ++ zeros, entry, rest, ?_, ?_, of_decide_eq_true notZero,
      unreadable⟩
    · rw [whole, backWhole, List.append_assoc]
    · intro earlier member apart
      rcases List.mem_append.mp member with inFront | isZero
      · apply readable
        rw [← frontFiltered]
        exact List.mem_filter.mpr ⟨inFront, decide_eq_true apart⟩
      · exact (allZero earlier isZero (decide_eq_true apart)).elim
  · intro ⟨before, entry, after, split, readable, notZero, unreadable⟩
    refine ⟨before.filter fun other => other ≠ 0, entry,
      after.filter fun other => other ≠ 0, ?_, ?_, unreadable⟩
    · rw [split, List.filter_append, List.filter_cons, decide_eq_true notZero]
      rfl
    · intro earlier member
      obtain ⟨inBefore, apart⟩ := List.mem_filter.mp member
      exact readable earlier inBefore (of_decide_eq_true apart)

/-- A directory is read from the bytes it is laid out in and from no others,
and the reading ends behind them.  A set that stands at an offset other than
zero gives the item at each of its offsets that is not zero, in order, as it
is read there on its own; if one of them cannot be read, the first such one is
the fault, and if no set stands there, that is.  The offset of a method is that
of the first pair for it, and a method has one exactly if a pair is for it. -/
theorem directories_and_sets_read_as_laid_out :
    (∀ (directory : Directory) (bytes : Bytes) (start last : Nat),
      Reader.directory bytes start = .ok (directory, last) ↔
        directory.CountsFit ∧
        directory.bytes <+: bytes.toList.drop start ∧
        last = start + directory.bytes.length) ∧
    (∀ (bytes : Bytes) (offset : UInt32) (offsets : List UInt32),
      offset ≠ 0 → HoldsSet bytes offset offsets →
      (∀ items, itemsAt bytes offset = .ok items ↔
        List.Forall₂ (fun entry item =>
            Reader.item.valueAt bytes entry.toNat = .ok item)
          (offsets.filter fun entry => entry ≠ 0) items) ∧
      ∀ fault, itemsAt bytes offset = .error fault ↔
        FirstUnreadable bytes offsets fault) ∧
    (∀ (bytes : Bytes) (offset : UInt32), offset ≠ 0 →
      (∀ offsets, ¬ HoldsSet bytes offset offsets) →
      ∃ fault, Reader.itemOffsets.valueAt bytes offset.toNat = .error fault ∧
        itemsAt bytes offset = .error fault) ∧
    ∀ (directory : Directory) (method : UInt32),
      (∀ offset, directory.methodOffset? method = some offset ↔
        JUnit4.FirstPair directory method offset) ∧
      (directory.methodOffset? method).isSome =
        directory.hasMethod method := by
  refine ⟨?_, ?_, fun _ _ present noSet => itemsAt_of_no_set present noSet, ?_⟩
  · intro directory bytes start last
    exact Reader.directory_eq_ok_iff bytes start directory last
  · intro bytes offset offsets present holds
    refine ⟨?_, itemsAt_eq_error_iff present holds⟩
    intro items
    rw [itemsAt_of_holdsSet present holds, mapM_eq_ok_iff]
  · intro directory method
    refine ⟨JUnit4.methodOffset?_eq_some_iff directory method, ?_⟩
    rw [Directory.methodOffset?, Directory.hasMethod, Option.isSome_map,
      List.isSome_find?]

/-! ### Items that overlap -/

/-- A set of some offsets behind four other bytes, and then the bytes of an
item.  Read from its second byte on, they are another item. -/
def overlappingBytes (offsets : List UInt32) : Bytes :=
  ([0, 0, 0, 0] ++ setBytes offsets ++ [1, 5, 0, 0]).toArray

def bareItem (visibility : UInt8) (type : UInt32) : Item :=
  { visibility := visibility, payload := { type := type, elements := [] } }

def sampleDirectory : Directory :=
  { classOffset := 0x1000
    fields := [{ member := 1, offset := 0x2000 }]
    methods := [{ member := 7, offset := 0x3000 },
      { member := 2, offset := 0 }, { member := 7, offset := 0x3100 }]
    parameters := [] }

private theorem item_overlappingBytes :
    Reader.item.valueAt (overlappingBytes [25, 0, 24, 24]) 25 =
        .ok (bareItem 5 0) ∧
      Reader.item.valueAt (overlappingBytes [25, 0, 24, 24]) 24 =
        .ok (bareItem 1 5) ∧
      Reader.item.valueAt (overlappingBytes [24, 0, 99, 98]) 24 =
        .ok (bareItem 1 5) := by
  refine ⟨?_, ?_, ?_⟩ <;> cbv

/-- The items come in the order of the offsets, the second one twice.  The
first offset behind the end is the fault, although another one follows. -/
theorem overlapping_items_read :
    Reader.directory sampleDirectory.bytes.toArray 0 =
      .ok (sampleDirectory, 48) ∧
    sampleDirectory.methodOffset? 7 = some 0x3000 ∧
    itemsAt (overlappingBytes [25, 0, 24, 24]) 4 =
      .ok [bareItem 5 0, bareItem 1 5, bareItem 1 5] ∧
    itemsAt (overlappingBytes [24, 0, 99, 98]) 4 =
      .error (.numberPastEnd .one 99) ∧
    ∃ fault, itemsAt #[1, 0] 1 = .error fault := by
  obtain ⟨directories, sets, noSets, methods⟩ :=
    directories_and_sets_read_as_laid_out
  obtain ⟨inside, outer, other⟩ := item_overlappingBytes
  have readable := sets (overlappingBytes [25, 0, 24, 24]) 4 [25, 0, 24, 24]
    (by decide) { stands := by decide, countFits := by decide }
  have unreadable := sets (overlappingBytes [24, 0, 99, 98]) 4 [24, 0, 99, 98]
    (by decide) { stands := by decide, countFits := by decide }
  refine ⟨?_, ?_, ?_, ?_, ?_⟩
  · refine (directories _ _ _ _).mpr ⟨?_, by decide, by decide⟩
    exact { fields := by decide, methods := by decide, parameters := by decide }
  · exact ((methods sampleDirectory 7).1 0x3000).mpr
      ⟨[], _, rfl, List.forall_mem_nil _⟩
  · exact (readable.1 _).mpr (.cons inside (.cons outer (.cons outer .nil)))
  · refine (unreadable.2 _).mpr ⟨[24, 0], 99, [98], rfl, ?_, by decide, rfl⟩
    simp only [List.forall_mem_cons]
    exact ⟨fun _ => ⟨_, other⟩, by simp, by simp⟩
  · obtain ⟨fault, _, failed⟩ := noSets #[1, 0] 1 (by decide) (by
      intro offsets holds
      have room := holds.stands.length_le
      simp [setBytes, wordBytes] at room
      omega)
    exact ⟨fault, failed⟩

end Dex
end DexCensus
