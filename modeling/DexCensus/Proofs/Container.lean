/-
Which buffers hold a segment, and what its tables hold.

A buffer holds a segment exactly if there is room for a header, the magic, the
version and the endian tag are right, and every table ends within the buffer.
The records of a table are then the numbers found one after another at its
offset.  These conditions and contents are said with the places of the bytes
in the buffer; no reader occurs in them.
-/

import DexCensus.Dex.Segment
import DexCensus.Proofs.Computation
import Mathlib.Algebra.BigOperators.Ring.Finset

namespace DexCensus

-- Powers of numbers are those of the core library, whatever else is imported.
attribute [local instance (high)] instPowNat

namespace Dex

def numberAt (bytes : Bytes) (position width : Nat) : Nat :=
  ∑ index ∈ Finset.range width,
    (bytes.getD (position + index) 0).toNat * 256 ^ index

def halfAt (bytes : Bytes) (position : Nat) : UInt32 :=
  UInt32.ofNat (numberAt bytes position 2)

def wordAt (bytes : Bytes) (position : Nat) : UInt32 :=
  UInt32.ofNat (numberAt bytes position 4)

def extentAt (bytes : Bytes) (position : Nat) : Extent :=
  { size := wordAt bytes position
    offset := wordAt bytes (position + 4) }

private theorem numberAt_succ (bytes : Bytes) (position width : Nat) :
    numberAt bytes position (width + 1) =
      (bytes.getD position 0).toNat
        + 256 * numberAt bytes (position + 1) width := by
  have shifted : ∀ index,
      (bytes.getD (position + (index + 1)) 0).toNat * 256 ^ (index + 1) =
        256 * ((bytes.getD (position + 1 + index) 0).toNat * 256 ^ index) := by
    intro index
    rw [Nat.pow_succ', Nat.mul_left_comm, show position + (index + 1) =
      position + 1 + index by omega]
  rw [numberAt, Finset.sum_range_succ', Nat.add_comm, numberAt, Finset.mul_sum]
  simp only [shifted, Nat.add_zero, Nat.pow_zero, Nat.mul_one]

theorem number_window {bytes : Bytes} {position width : Nat}
    (inside : position + width ≤ bytes.size) :
    LittleEndian.number (bytes.window position width) =
      numberAt bytes position width := by
  induction width generalizing position with
  | zero => simp [Bytes.window_eq, LittleEndian.number, numberAt]
  | succ width ih =>
      -- The first byte is the least significant, and the others follow it.
      have here : position < bytes.toList.length := by
        rw [Array.length_toList]
        omega
      have front : bytes.window position (width + 1) =
          bytes[position] :: bytes.window (position + 1) width := by
        rw [Bytes.window_eq, Bytes.window_eq, List.drop_eq_getElem_cons here,
          List.take_succ_cons, Array.getElem_toList]
      rw [front, LittleEndian.number, ih (by omega), numberAt_succ,
        Array.getD_eq_getD_getElem?, Array.getElem?_eq_getElem (by omega),
        Option.getD_some]

theorem numberAt_lt {bytes : Bytes} {position width : Nat}
    (inside : position + width ≤ bytes.size) :
    numberAt bytes position width < 256 ^ width := by
  have bound := LittleEndian.number_lt (bytes.window position width)
  rwa [number_window inside, bytes.length_window inside] at bound

theorem wordAt_toNat {bytes : Bytes} {position : Nat}
    (inside : position + 4 ≤ bytes.size) :
    (wordAt bytes position).toNat = numberAt bytes position 4 :=
  UInt32.toNat_ofNat_of_lt' (numberAt_lt inside)

/-! ### Records at places of a buffer -/

def prototypeAt (bytes : Bytes) (position : Nat) : Prototype :=
  { shorty := wordAt bytes position
    returnType := wordAt bytes (position + 4)
    parametersOffset := wordAt bytes (position + 8) }

def fieldAt (bytes : Bytes) (position : Nat) : Field :=
  { classType := halfAt bytes position
    type := halfAt bytes (position + 2)
    name := wordAt bytes (position + 4) }

def methodAt (bytes : Bytes) (position : Nat) : Method :=
  { classType := halfAt bytes position
    proto := halfAt bytes (position + 2)
    name := wordAt bytes (position + 4) }

def classDefAt (bytes : Bytes) (position : Nat) : ClassDef :=
  { classType := wordAt bytes position
    accessFlags := wordAt bytes (position + 4)
    superclassType := wordAt bytes (position + 8)
    interfacesOffset := wordAt bytes (position + 12)
    sourceFile := wordAt bytes (position + 16)
    annotationsOffset := wordAt bytes (position + 20)
    classDataOffset := wordAt bytes (position + 24)
    staticValuesOffset := wordAt bytes (position + 28) }

def headerAt (bytes : Bytes) (version : Nat) : Header :=
  { magic := bytes.toList.take 8
    version := version
    checksum := wordAt bytes 0x08
    signature := (bytes.toList.drop 0x0c).take 20
    fileSize := wordAt bytes 0x20
    headerSize := wordAt bytes 0x24
    endianTag := wordAt bytes 0x28
    link := extentAt bytes 0x2c
    mapOffset := wordAt bytes 0x34
    stringIds := extentAt bytes 0x38
    typeIds := extentAt bytes 0x40
    protoIds := extentAt bytes 0x48
    fieldIds := extentAt bytes 0x50
    methodIds := extentAt bytes 0x58
    classDefs := extentAt bytes 0x60
    data := extentAt bytes 0x68 }

end Dex

namespace Reader

open Dex

variable {α β : Type} {bytes : Bytes} {position next : Nat}

theorem bind_of_ok {first : Reader α} {second : α → Reader β} {value : α}
    (read : first bytes position = .ok (value, next)) :
    (first >>= second) bytes position = second value bytes next := by
  rw [bind_eq, andThen, read]

private theorem u2_at (inside : position + 2 ≤ bytes.size) :
    u2 bytes position =
      .ok (UInt16.ofNat (numberAt bytes position 2), position + 2) := by
  have read : fixedNumber .two bytes position =
      .ok (numberAt bytes position 2, position + 2) := by
    rw [← number_window inside]
    exact if_pos inside
  rw [u2, andThen, read]
  rfl

theorem u4_at (inside : position + 4 ≤ bytes.size) :
    u4 bytes position = .ok (wordAt bytes position, position + 4) := by
  have read : fixedNumber .four bytes position =
      .ok (numberAt bytes position 4, position + 4) := by
    rw [← number_window inside]
    exact if_pos inside
  rw [u4, andThen, read]
  rfl

theorem shortIndex_at (inside : position + 2 ≤ bytes.size) :
    shortIndex bytes position = .ok (halfAt bytes position, position + 2) := by
  have small : numberAt bytes position 2 < 2 ^ 16 := numberAt_lt inside
  have widened : (UInt16.ofNat (numberAt bytes position 2)).toUInt32 =
      halfAt bytes position := by
    apply UInt32.toNat_inj.mp
    rw [UInt16.toNat_toUInt32, UInt16.toNat_ofNat_of_lt' small, halfAt,
      UInt32.toNat_ofNat_of_lt' (Nat.lt_trans small (by decide))]
  rw [shortIndex, bind_of_ok (u2_at inside), widened]
  rfl

private theorem extent_at (inside : position + 8 ≤ bytes.size) :
    extent bytes position = .ok (extentAt bytes position, position + 8) := by
  rw [extent, bind_of_ok (u4_at (by omega)), bind_of_ok (u4_at (by omega))]
  rfl

/-- A reader takes `size` bytes wherever the buffer has so many, and makes of
them the record that `recordAt` finds there. -/
def ReadsAt (record : Reader α) (size : Nat) (recordAt : Bytes → Nat → α) :
    Prop :=
  ∀ bytes position, position + size ≤ bytes.size →
    record bytes position = .ok (recordAt bytes position, position + size)

theorem readsAt_u4 : ReadsAt u4 4 wordAt :=
  fun _ _ inside => u4_at inside

theorem readsAt_prototype : ReadsAt prototype 12 prototypeAt := by
  intro bytes position inside
  unfold prototype
  iterate 3 rw [bind_of_ok (u4_at (by omega))]
  rfl

theorem readsAt_field : ReadsAt field 8 fieldAt := by
  intro bytes position inside
  unfold field
  iterate 2 rw [bind_of_ok (shortIndex_at (by omega))]
  rw [bind_of_ok (u4_at (by omega))]
  rfl

theorem readsAt_method : ReadsAt method 8 methodAt := by
  intro bytes position inside
  unfold method
  iterate 2 rw [bind_of_ok (shortIndex_at (by omega))]
  rw [bind_of_ok (u4_at (by omega))]
  rfl

theorem readsAt_classDef : ReadsAt classDef 32 classDefAt := by
  intro bytes position inside
  unfold classDef
  iterate 8 rw [bind_of_ok (u4_at (by omega))]
  rfl

theorem take_at {length : Nat} (inside : position + length ≤ bytes.size) :
    take length bytes position =
      .ok ((bytes.toList.drop position).take length, position + length) := by
  rw [take, if_pos inside, Bytes.window_eq]

private theorem bind_of_error {first : Reader α} {second : α → Reader β}
    {fault : Fault} (failed : first bytes position = .error fault) :
    (first >>= second) bytes position = .error fault := by
  rw [bind_eq, andThen, failed]

private theorem magic_at (inside : 8 ≤ bytes.size) :
    magic bytes 0 =
      match magicVersion (bytes.toList.take 8) with
      | .error fault => .error fault
      | .ok version => .ok ((bytes.toList.take 8, version), 8) := by
  rw [magic, bind_of_ok (take_at (by omega)), List.drop_zero]
  cases magicVersion (bytes.toList.take 8) <;> rfl

private theorem endian_at (inside : position + 4 ≤ bytes.size) :
    endian bytes position =
      if wordAt bytes position = endianTag then
        .ok (wordAt bytes position, position + 4)
      else .error (.badEndianTag (wordAt bytes position)) := by
  rw [endian, bind_of_ok (u4_at inside)]
  split <;> rfl

private theorem header_at (enough : 0x70 ≤ bytes.size) :
    header.valueAt bytes 0 =
      match magicVersion (bytes.toList.take 8) with
      | .error fault => .error fault
      | .ok version =>
          if wordAt bytes 0x28 = endianTag then .ok (headerAt bytes version)
          else .error (.badEndianTag (wordAt bytes 0x28)) := by
  have magicRead := magic_at (show 8 ≤ bytes.size by omega)
  have tagRead := endian_at (show 0x28 + 4 ≤ bytes.size by omega)
  have notShort : ¬ bytes.size < headerSize := Nat.not_lt.mpr enough
  rw [valueAt, header,
    bind_of_ok (show bufferSize bytes 0 = .ok (bytes.size, 0) from rfl),
    if_neg notShort]
  cases version : magicVersion (bytes.toList.take 8) with
  | error fault =>
      rw [version] at magicRead
      rw [bind_of_error magicRead]
  | ok version =>
      rw [version] at magicRead
      rw [bind_of_ok magicRead]
      dsimp only
      rw [bind_of_ok (u4_at (by omega)), bind_of_ok (take_at (by omega))]
      iterate 2 rw [bind_of_ok (u4_at (by omega))]
      by_cases expected : wordAt bytes 0x28 = endianTag
      · rw [if_pos expected] at tagRead
        rw [bind_of_ok tagRead, bind_of_ok (extent_at (by omega)),
          bind_of_ok (u4_at (by omega))]
        iterate 7 rw [bind_of_ok (extent_at (by omega))]
        rw [if_pos expected]
        rfl
      · rw [if_neg expected] at tagRead
        rw [bind_of_error tagRead, if_neg expected]

end Reader

namespace Dex

open Reader

variable {α : Type} {bytes : Bytes}

/-! ### Tables -/

/-- Where a header has the size and the offset of a table, and how many bytes
each record of the table takes. -/
structure TableLayout where
  pair : Nat
  recordSize : Nat
  deriving DecidableEq

namespace TableLayout

def stringIds : TableLayout := { pair := 0x38, recordSize := 4 }

def typeIds : TableLayout := { pair := 0x40, recordSize := 4 }

def protoIds : TableLayout := { pair := 0x48, recordSize := 12 }

def fieldIds : TableLayout := { pair := 0x50, recordSize := 8 }

def methodIds : TableLayout := { pair := 0x58, recordSize := 8 }

def classDefs : TableLayout := { pair := 0x60, recordSize := 32 }

def all : List TableLayout :=
  [stringIds, typeIds, protoIds, fieldIds, methodIds, classDefs]

def count (layout : TableLayout) (bytes : Bytes) : Nat :=
  numberAt bytes layout.pair 4

def offset (layout : TableLayout) (bytes : Bytes) : Nat :=
  numberAt bytes (layout.pair + 4) 4

def Fits (layout : TableLayout) (bytes : Bytes) : Prop :=
  layout.offset bytes + layout.count bytes * layout.recordSize ≤ bytes.size

instance (layout : TableLayout) (bytes : Bytes) :
    Decidable (layout.Fits bytes) :=
  Nat.decLe _ _

def rows (layout : TableLayout) (bytes : Bytes) (recordAt : Bytes → Nat → α) :
    Array α :=
  ((List.range (layout.count bytes)).map fun row =>
    recordAt bytes (layout.offset bytes + row * layout.recordSize)).toArray

end TableLayout

/-- A table has as many records as the header says, and each one is what stands
at its place. -/
structure HoldsTable (layout : TableLayout) (bytes : Bytes)
    (recordAt : Bytes → Nat → α) (table : Array α) : Prop where
  size : table.size = layout.count bytes
  row : ∀ row, row < layout.count bytes → table[row]? =
    some (recordAt bytes (layout.offset bytes + row * layout.recordSize))

private theorem holdsTable_rows (layout : TableLayout) (bytes : Bytes)
    (recordAt : Bytes → Nat → α) :
    HoldsTable layout bytes recordAt (layout.rows bytes recordAt) := by
  constructor
  case size => simp [TableLayout.rows]
  case row =>
    intro row inside
    simp [TableLayout.rows, inside]

section

variable {record : Reader α} {recordAt : Bytes → Nat → α}
variable (layout : TableLayout) (inHeader : layout.pair + 8 ≤ bytes.size)

include inHeader

theorem extentAt_toNat :
    (extentAt bytes layout.pair).size.toNat = layout.count bytes ∧
    (extentAt bytes layout.pair).offset.toNat = layout.offset bytes :=
  ⟨wordAt_toNat (by omega), wordAt_toNat (by omega)⟩

private theorem tableAt_of_fits
    (reads : ReadsAt record layout.recordSize recordAt)
    (fits : layout.Fits bytes) :
    tableAt record layout.recordSize (extentAt bytes layout.pair) bytes =
      .ok (layout.rows bytes recordAt) := by
  have ends : layout.offset bytes + layout.count bytes * layout.recordSize
      ≤ bytes.size := fits
  have each : (List.range (layout.count bytes)).mapM (fun row =>
      record.valueAt bytes (layout.offset bytes + row * layout.recordSize)) =
      .ok ((List.range (layout.count bytes)).map fun row =>
        recordAt bytes (layout.offset bytes + row * layout.recordSize)) := by
    rw [mapM_eq_ok_iff, List.forall₂_map_right_iff, List.forall₂_same]
    intro row member
    have before := Nat.mul_le_mul_right layout.recordSize
      (Nat.succ_le_of_lt (List.mem_range.mp member))
    rw [Nat.succ_mul] at before
    exact valueAt_eq_ok_iff.mpr ⟨_, reads bytes _ (by omega)⟩
  obtain ⟨count, offset⟩ := extentAt_toNat layout inHeader
  simp only [tableAt, count, offset]
  rw [if_pos ends, each]
  rfl

private theorem tableAt_of_not_fits (outside : ¬ layout.Fits bytes) :
    tableAt record layout.recordSize (extentAt bytes layout.pair) bytes =
      .error (.tablePastEnd (layout.count bytes) layout.recordSize
        (layout.offset bytes)) := by
  have pastEnd : ¬ layout.offset bytes + layout.count bytes * layout.recordSize
      ≤ bytes.size := outside
  obtain ⟨count, offset⟩ := extentAt_toNat layout inHeader
  simp only [tableAt, count, offset]
  rw [if_neg pastEnd]

end

/-- The magic of a version, with its three decimal digits in the middle. -/
def IsMagic (version : Nat) (magic : List UInt8) : Prop :=
  ∃ hundreds tens ones, hundreds ≤ 9 ∧ tens ≤ 9 ∧ ones ≤ 9 ∧
    version = 100 * hundreds + 10 * tens + ones ∧
    magic = [0x64, 0x65, 0x78, 0x0a, UInt8.ofNat (0x30 + hundreds),
      UInt8.ofNat (0x30 + tens), UInt8.ofNat (0x30 + ones), 0x00]

theorem isDigit_iff (byte : UInt8) :
    isDigit byte = true ↔
      ∃ digit, digit ≤ 9 ∧ byte = UInt8.ofNat (0x30 + digit) := by
  rw [isDigit, Bool.and_eq_true, decide_eq_true_iff, decide_eq_true_iff,
    UInt8.le_iff_toNat_le, UInt8.le_iff_toNat_le]
  constructor
  · intro ⟨low, high⟩
    have least : 0x30 ≤ byte.toNat := low
    have greatest : byte.toNat ≤ 0x39 := high
    refine ⟨byte.toNat - 0x30, by omega, ?_⟩
    rw [Nat.add_sub_cancel' least, UInt8.ofNat_toNat]
  · intro ⟨digit, small, same⟩
    have value : byte.toNat = 0x30 + digit := by
      rw [same, UInt8.toNat_ofNat']
      omega
    rw [value]
    exact ⟨Nat.le_add_right _ _, Nat.add_le_add_left small _⟩

theorem digitsValue_digits {hundreds tens ones : Nat} (first : hundreds ≤ 9)
    (second : tens ≤ 9) (third : ones ≤ 9) :
    digitsValue [UInt8.ofNat (0x30 + hundreds), UInt8.ofNat (0x30 + tens),
      UInt8.ofNat (0x30 + ones)] = 100 * hundreds + 10 * tens + ones := by
  simp only [digitsValue, List.foldl_cons, List.foldl_nil,
    UInt8.toNat_ofNat']
  omega

theorem IsMagic.version_eq {version : Nat} {magic : List UInt8}
    (isMagic : IsMagic version magic) :
    version = digitsValue ((magic.drop 4).take 3) := by
  obtain ⟨hundreds, tens, ones, first, second, third, same, whole⟩ := isMagic
  subst whole
  rw [same]
  exact (digitsValue_digits first second third).symm

private theorem isMagic_iff {magic : List UInt8} (eight : magic.length = 8) :
    IsMagic (digitsValue ((magic.drop 4).take 3)) magic ↔
      magic.take 4 = magicStart ∧ magic.drop 7 = [0] ∧
        ((magic.drop 4).take 3).all isDigit = true := by
  constructor
  · intro ⟨hundreds, tens, ones, first, second, third, _, whole⟩
    subst whole
    have isHundreds := (isDigit_iff _).mpr ⟨hundreds, first, rfl⟩
    have isTens := (isDigit_iff _).mpr ⟨tens, second, rfl⟩
    have isOnes := (isDigit_iff _).mpr ⟨ones, third, rfl⟩
    refine ⟨rfl, rfl, ?_⟩
    simp only [List.drop_succ_cons, List.drop_zero, List.take_succ_cons,
      List.take_zero, List.all_cons, List.all_nil, isHundreds, isTens, isOnes,
      Bool.and_true]
  · intro ⟨starts, ends, digits⟩
    match magic, eight with
    | [_, _, _, _, hundreds, tens, ones, _], _ =>
      simp only [List.drop_succ_cons, List.drop_zero, List.take_succ_cons,
        List.take_zero, List.all_cons, List.all_nil, Bool.and_true,
        Bool.and_eq_true, isDigit_iff] at starts ends digits ⊢
      obtain ⟨⟨hundreds, first, rfl⟩, ⟨tens, second, rfl⟩, ones, third,
        rfl⟩ := digits
      cases starts
      cases ends
      exact ⟨hundreds, tens, ones, first, second, third,
        digitsValue_digits first second third, rfl⟩

private theorem magicVersion_cases {magic : List UInt8}
    (eight : magic.length = 8) :
    (∃ version, IsMagic version magic ∧ 35 ≤ version ∧
      magicVersion magic = .ok version) ∨
    (∃ version, IsMagic version magic ∧ version < 35 ∧
      magicVersion magic = .error (.unsupportedVersion version)) ∨
    ((∀ version, ¬ IsMagic version magic) ∧
      magicVersion magic = .error (.badMagic magic)) := by
  have shape := isMagic_iff eight
  rw [magicVersion]
  by_cases isMagic : IsMagic (digitsValue ((magic.drop 4).take 3)) magic
  · rw [if_pos (shape.mp isMagic)]
    by_cases old : digitsValue ((magic.drop 4).take 3) < minimumVersion
    · exact Or.inr (Or.inl ⟨_, isMagic, old, if_pos old⟩)
    · exact Or.inl ⟨_, isMagic, Nat.not_lt.mp old, if_neg old⟩
  · refine Or.inr (Or.inr ⟨?_, if_neg (mt shape.mpr isMagic)⟩)
    intro version other
    rw [other.version_eq] at other
    exact isMagic other

/-! ### Whole segments -/

structure IsContainer (bytes : Bytes) (version : Nat) : Prop where
  long : 0x70 ≤ bytes.size
  magic : IsMagic version (bytes.toList.take 8)
  supported : 35 ≤ version
  endian : numberAt bytes 0x28 4 = 0x12345678
  tables : ∀ layout ∈ TableLayout.all, layout.Fits bytes

structure HoldsContents (bytes : Bytes) (version : Nat) (segment : Segment) :
    Prop where
  header : segment.header = headerAt bytes version
  strings : HoldsTable .stringIds bytes wordAt segment.strings
  types : HoldsTable .typeIds bytes wordAt segment.types
  prototypes : HoldsTable .protoIds bytes prototypeAt segment.prototypes
  fields : HoldsTable .fieldIds bytes fieldAt segment.fields
  methods : HoldsTable .methodIds bytes methodAt segment.methods
  classDefs : HoldsTable .classDefs bytes classDefAt segment.classDefs
  data : segment.data = bytes

def segmentAt (bytes : Bytes) (version : Nat) : Segment :=
  { header := headerAt bytes version
    strings := TableLayout.stringIds.rows bytes wordAt
    types := TableLayout.typeIds.rows bytes wordAt
    prototypes := TableLayout.protoIds.rows bytes prototypeAt
    fields := TableLayout.fieldIds.rows bytes fieldAt
    methods := TableLayout.methodIds.rows bytes methodAt
    classDefs := TableLayout.classDefs.rows bytes classDefAt
    data := bytes }

private theorem holdsContents_segmentAt (bytes : Bytes) (version : Nat) :
    HoldsContents bytes version (segmentAt bytes version) :=
  { header := rfl
    strings := holdsTable_rows _ _ _
    types := holdsTable_rows _ _ _
    prototypes := holdsTable_rows _ _ _
    fields := holdsTable_rows _ _ _
    methods := holdsTable_rows _ _ _
    classDefs := holdsTable_rows _ _ _
    data := rfl }

/-- Why a buffer holds no segment, with the fault that says so. -/
inductive Refusal (bytes : Bytes) : Fault → Prop
  | short : bytes.size < 0x70 → Refusal bytes (.headerTruncated bytes.size)
  | magic : (∀ version, ¬ IsMagic version (bytes.toList.take 8)) →
      Refusal bytes (.badMagic (bytes.toList.take 8))
  | version {version : Nat} :
      IsMagic version (bytes.toList.take 8) → version < 35 →
        Refusal bytes (.unsupportedVersion version)
  | endian : numberAt bytes 0x28 4 ≠ 0x12345678 →
      Refusal bytes (.badEndianTag (wordAt bytes 0x28))
  | table {layout : TableLayout} :
      layout ∈ TableLayout.all → ¬ layout.Fits bytes →
        Refusal bytes (.tablePastEnd (layout.count bytes) layout.recordSize
          (layout.offset bytes))

private theorem Refusal.kind {fault : Fault} (refusal : Refusal bytes fault) :
    fault.kind = .malformedContainer := by
  cases refusal <;> rfl

/-- A computation over some tables of a buffer gives a value, or tells a table
that does not end within the buffer. -/
def ReadsTables {β : Type} (bytes : Bytes) (layouts : List TableLayout)
    (value : β) (outcome : Except Fault β) : Prop :=
  ((∀ layout ∈ layouts, layout.Fits bytes) ∧ outcome = .ok value) ∨
  ∃ layout ∈ layouts, ¬ layout.Fits bytes ∧
    outcome = .error (.tablePastEnd (layout.count bytes) layout.recordSize
      (layout.offset bytes))

@[simp] theorem readsTables_nil {β : Type} (value : β) :
    ReadsTables bytes [] value (.ok value) :=
  Or.inl ⟨List.forall_mem_nil _, rfl⟩

private theorem readsTables_cons {β : Type} {value : β} {record : Reader α}
    {recordAt : Bytes → Nat → α} {next : Array α → Except Fault β}
    {layouts : List TableLayout} (layout : TableLayout)
    (reads : ReadsAt record layout.recordSize recordAt)
    (inHeader : layout.pair + 8 ≤ bytes.size)
    (others : ReadsTables bytes layouts value
      (next (layout.rows bytes recordAt))) :
    ReadsTables bytes (layout :: layouts) value
      (tableAt record layout.recordSize (extentAt bytes layout.pair) bytes >>=
        next) := by
  by_cases fits : layout.Fits bytes
  · rw [bind_of_eq_ok (tableAt_of_fits layout inHeader reads fits)]
    rcases others with ⟨allFit, read⟩ | ⟨other, member, outside, told⟩
    · exact Or.inl ⟨List.forall_mem_cons.mpr ⟨fits, allFit⟩, read⟩
    · exact Or.inr ⟨other, List.mem_cons_of_mem _ member, outside, told⟩
  · exact Or.inr ⟨layout, List.mem_cons_self, fits,
      bind_of_eq_error (tableAt_of_not_fits layout inHeader fits)⟩

private theorem parse_of_header {version : Nat} (enough : 0x70 ≤ bytes.size)
    (headerRead : header.valueAt bytes 0 = .ok (headerAt bytes version)) :
    ReadsTables bytes TableLayout.all (segmentAt bytes version)
      (Segment.parse bytes) := by
  have inHeader : ∀ layout ∈ TableLayout.all,
      layout.pair + 8 ≤ bytes.size := by
    intro layout member
    have last : ∀ layout ∈ TableLayout.all, layout.pair + 8 ≤ 0x70 := by
      decide
    exact Nat.le_trans (last layout member) enough
  rw [Segment.parse, bind_of_eq_ok headerRead]
  -- The tables are checked in the order of their pairs, all in the header.
  refine readsTables_cons .stringIds readsAt_u4 (inHeader _ (by decide)) ?_
  refine readsTables_cons .typeIds readsAt_u4 (inHeader _ (by decide)) ?_
  refine readsTables_cons .protoIds readsAt_prototype
    (inHeader _ (by decide)) ?_
  refine readsTables_cons .fieldIds readsAt_field (inHeader _ (by decide)) ?_
  refine readsTables_cons .methodIds readsAt_method
    (inHeader _ (by decide)) ?_
  refine readsTables_cons .classDefs readsAt_classDef
    (inHeader _ (by decide)) ?_
  exact readsTables_nil _

private theorem parse_of_short (short : bytes.size < 0x70) :
    Segment.parse bytes = .error (.headerTruncated bytes.size) := by
  apply bind_of_eq_error
  rw [valueAt, header,
    Reader.bind_of_ok (show bufferSize bytes 0 = .ok (bytes.size, 0) from rfl),
    if_pos (show bytes.size < headerSize from short)]
  rfl

private theorem wordAt_eq_endianTag_iff (enough : 0x70 ≤ bytes.size) :
    wordAt bytes 0x28 = endianTag ↔ numberAt bytes 0x28 4 = 0x12345678 := by
  have word := wordAt_toNat (show 0x28 + 4 ≤ bytes.size by omega)
  rw [← UInt32.toNat_inj, word]
  rfl

private theorem parse_cases (bytes : Bytes) :
    (∃ version, IsContainer bytes version ∧
      Segment.parse bytes = .ok (segmentAt bytes version)) ∨
    ∃ fault, Refusal bytes fault ∧ Segment.parse bytes = .error fault := by
  by_cases enough : 0x70 ≤ bytes.size
  case neg =>
    have short := Nat.not_le.mp enough
    exact Or.inr ⟨_, .short short, parse_of_short short⟩
  have eight : (bytes.toList.take 8).length = 8 := by
    rw [List.length_take, Array.length_toList]
    omega
  have headerRead := header_at enough
  rcases magicVersion_cases eight with
    ⟨version, isMagic, supported, accepted⟩ | ⟨version, isMagic, old, told⟩ |
    ⟨noMagic, told⟩
  · rw [accepted] at headerRead
    by_cases little : wordAt bytes 0x28 = endianTag
    case neg =>
      refine Or.inr ⟨_, .endian ?_, ?_⟩
      · exact fun same => little ((wordAt_eq_endianTag_iff enough).mpr same)
      · exact bind_of_eq_error (headerRead.trans (if_neg little))
    rcases parse_of_header enough (headerRead.trans (if_pos little)) with
      ⟨allFit, parsed⟩ | ⟨layout, member, outside, told⟩
    · refine Or.inl ⟨version, ?_, parsed⟩
      exact {
        long := enough
        magic := isMagic
        supported := supported
        endian := (wordAt_eq_endianTag_iff enough).mp little
        tables := allFit }
    · exact Or.inr ⟨_, .table member outside, told⟩
  · rw [told] at headerRead
    exact Or.inr ⟨_, .version isMagic old, bind_of_eq_error headerRead⟩
  · rw [told] at headerRead
    exact Or.inr ⟨_, .magic noMagic, bind_of_eq_error headerRead⟩

private theorem IsContainer.not_refused {version : Nat} {fault : Fault}
    (container : IsContainer bytes version) : ¬ Refusal bytes fault := by
  intro refusal
  cases refusal with
  | short short => exact Nat.not_lt.mpr container.long short
  | magic noMagic => exact noMagic version container.magic
  | version other unsupported =>
      have same := other.version_eq.trans container.magic.version_eq.symm
      have supported := container.supported
      omega
  | endian other => exact other container.endian
  | table member outside => exact outside (container.tables _ member)

/-- A buffer is taken exactly if it holds a segment, and the segment that is
read has the contents of the buffer.  Everything else is malformed, and never
because a record of a table could not be read. -/
theorem parse_exact (bytes : Bytes) :
    ((∃ segment, Segment.parse bytes = .ok segment) ↔
      ∃ version, IsContainer bytes version) ∧
    (∀ segment, Segment.parse bytes = .ok segment →
      ∃ version, IsContainer bytes version ∧
        HoldsContents bytes version segment) ∧
    ∀ fault, Segment.parse bytes = .error fault →
      fault.kind = .malformedContainer ∧ Refusal bytes fault ∧
        ∀ width position, fault ≠ .numberPastEnd width position := by
  rcases parse_cases bytes with ⟨version, container, parsed⟩ |
    ⟨fault, refusal, refused⟩
  · rw [parsed]
    refine ⟨⟨fun _ => ⟨version, container⟩, fun _ => ⟨_, rfl⟩⟩, ?_, ?_⟩
    · intro segment same
      cases same
      exact ⟨version, container, holdsContents_segmentAt bytes version⟩
    · intro fault impossible
      cases impossible
  · rw [refused]
    refine ⟨⟨?_, ?_⟩, ?_, ?_⟩
    · intro ⟨segment, impossible⟩
      cases impossible
    · intro ⟨version, container⟩
      exact absurd refusal container.not_refused
    · intro segment impossible
      cases impossible
    · intro other same
      cases same
      refine ⟨refusal.kind, refusal, ?_⟩
      intro width position same
      subst same
      cases refusal

/-- A header alone, with a table size of zero everywhere. -/
def emptyContainer : Bytes :=
  ([0x64, 0x65, 0x78, 0x0a, 0x30, 0x33, 0x35, 0x00]
    ++ List.replicate 0x20 0 ++ [0x78, 0x56, 0x34, 0x12]
    ++ List.replicate 0x44 0 : List UInt8).toArray

private theorem isContainer_emptyContainer : IsContainer emptyContainer 35 :=
  { long := by decide
    magic := ⟨0, 3, 5, by decide, by decide, by decide, by decide, by decide⟩
    supported := by decide
    endian := by decide
    tables := by decide }

theorem emptyContainer_is_taken :
    IsContainer emptyContainer 35 ∧
      ∃ segment, Segment.parse emptyContainer = .ok segment :=
  ⟨isContainer_emptyContainer,
    (parse_exact emptyContainer).1.mpr ⟨35, isContainer_emptyContainer⟩⟩

end Dex
end DexCensus
