/-
The canonical bytes of an encoded value are bytes that write it, and no bytes
that write it are fewer.

Both halves are shown for each part of the format: variable-length numbers,
signed and unsigned numbers, and bit patterns.  A tree of values is then a
matter of its parts.  The only limit is that a count has to fit in 32 bits.
-/

import DexCensus.Dex.EncodedValue.Canonical
import DexCensus.Proofs.EncodedValue.Exact
import Mathlib.Data.List.TakeWhile

namespace DexCensus

-- Powers of numbers are those of the core library, whatever else is imported.
attribute [local instance (high)] instPowNat

namespace Uleb128

theorem written_encode (value : UInt32) : Written value (encode value) := by
  have decoded := decode_encode value []
  rw [List.append_nil, decode_eq_ok_iff] at decoded
  obtain ⟨written, stands, counted, meant⟩ := decoded
  rwa [← stands.eq_of_length counted.symm]

theorem length_encodeGroups_le {more value length : Nat} (positive : 0 < length)
    (fits : value < 128 ^ length) :
    (encodeGroups more value).length ≤ length := by
  induction more generalizing value length with
  | zero => exact positive
  | succ more ih =>
      rw [encodeGroups]
      split
      · exact positive
      · rename_i large
        -- A single byte holds a number below 128 only.
        have several : length ≠ 1 := by
          intro one
          rw [one] at fits
          exact large fits
        obtain ⟨shorter, same⟩ : ∃ shorter, length = shorter + 2 :=
          ⟨length - 2, by omega⟩
        subst same
        have shifted : value / 128 < 128 ^ (shorter + 1) := by
          rw [Nat.pow_succ] at fits
          omega
        exact Nat.succ_le_succ (ih (Nat.succ_pos _) shifted)

theorem groupsNumber_lt (written : List UInt8) :
    groupsNumber written < 128 ^ written.length := by
  induction written with
  | nil => exact Nat.one_pos
  | cons byte rest ih =>
      rw [groupsNumber, List.length_cons, Nat.pow_succ]
      omega

theorem length_encode_le {value : UInt32} {written : List UInt8}
    (meant : Written value written) :
    (encode value).length ≤ written.length := by
  apply length_encodeGroups_le meant.run.length_pos
  rw [meant.carried]
  exact Nat.lt_of_le_of_lt (Nat.mod_le _ _) (groupsNumber_lt written)

end Uleb128

namespace Grammar

variable {α : Type} {each : Grammar α} {write : α → List UInt8}

theorem sequence_flatMap {values : List α}
    (writes : ∀ value ∈ values, each value (write value)) :
    Sequence each values (values.flatMap write) := by
  induction values with
  | nil => exact Sequence.nil
  | cons value rest ih =>
      rw [List.flatMap_cons]
      exact Sequence.cons (writes value List.mem_cons_self)
        (ih fun other member => writes other (List.mem_cons_of_mem _ member))

private theorem Sequence.bounded {holds : Grammar α} {bound : Nat}
    (implies : ∀ value part, each value part → part.length ≤ bound →
      holds value part)
    {values : List α} {written : List UInt8}
    (sequence : Sequence each values written) (within : written.length ≤ bound) :
    Sequence holds values written := by
  induction sequence with
  | nil => exact Sequence.nil
  | cons meant _ ih =>
      rw [List.length_append] at within
      exact Sequence.cons (implies _ _ meant (by omega)) (ih (by omega))

private theorem Sequence.forall_mem {Holds : α → Prop}
    (implies : ∀ value part, each value part → Holds value)
    {values : List α} {written : List UInt8}
    (sequence : Sequence each values written) :
    ∀ value ∈ values, Holds value := by
  induction sequence with
  | nil => exact List.forall_mem_nil _
  | cons meant _ ih =>
      exact List.forall_mem_cons.mpr ⟨implies _ _ meant, ih⟩

theorem Sequence.length_flatMap_le
    (shortest : ∀ value part, each value part →
      (write value).length ≤ part.length)
    {values : List α} {written : List UInt8}
    (sequence : Sequence each values written) :
    (values.flatMap write).length ≤ written.length := by
  induction sequence with
  | nil => exact Nat.le_refl 0
  | cons meant _ ih =>
      rw [List.flatMap_cons, List.length_append, List.length_append]
      exact Nat.add_le_add (shortest _ _ meant) ih

end Grammar

namespace Dex

open Grammar

theorem leastSize_spec (fits : Nat → Bool) {more size found : Nat}
    (least : size ≤ found) (within : found ≤ size + more)
    (fitsFound : fits found = true) :
    fits (leastSize fits more size) = true ∧
      size ≤ leastSize fits more size ∧ leastSize fits more size ≤ found := by
  induction more generalizing size with
  | zero =>
      have same : size = found := Nat.le_antisymm least within
      rw [leastSize, same]
      exact ⟨fitsFound, Nat.le_refl _, Nat.le_refl _⟩
  | succ more ih =>
      rw [leastSize]
      split
      · rename_i fitsHere
        exact ⟨fitsHere, Nat.le_refl _, least⟩
      · rename_i tooSmall
        have next : size ≠ found := by
          intro same
          rw [same] at tooSmall
          exact tooSmall fitsFound
        obtain ⟨fitsLeast, above, below⟩ :=
          ih (show size + 1 ≤ found by omega) (by omega)
        exact ⟨fitsLeast, by omega, below⟩

/-! ### Numbers and patterns -/

def signedBytes (value : Int) : List UInt8 :=
  LittleEndian.bytes (signedSize value)
    (value.emod (256 ^ signedSize value : Nat)).toNat

@[simp] theorem length_signedBytes (value : Int) :
    (signedBytes value).length = signedSize value :=
  LittleEndian.length_bytes _ _

theorem signedSize_spec {value : Int} {size : Nat} (positive : 1 ≤ size)
    (within : size ≤ 8) (fits : Int.bmod value (256 ^ size) = value) :
    Int.bmod value (256 ^ signedSize value) = value ∧
      1 ≤ signedSize value ∧ signedSize value ≤ size := by
  have least := leastSize_spec (fun size =>
    decide (Int.bmod value (256 ^ size) = value)) positive
    (show size ≤ 1 + 7 from within) (decide_eq_true fits)
  rwa [decide_eq_true_iff] at least

private theorem signedNumber_bytes {value : Int} {size : Nat}
    (fits : Int.bmod value (256 ^ size) = value) :
    signedNumber (LittleEndian.bytes size
      (value.emod (256 ^ size : Nat)).toNat) = value := by
  have positive : 0 < 256 ^ size := Nat.pow_pos (by decide)
  have residue : ((value.emod (256 ^ size : Nat)).toNat : Int) =
      value % (256 ^ size : Nat) :=
    Int.toNat_of_nonneg (Int.emod_nonneg _ (by omega))
  rw [signedNumber, LittleEndian.number_bytes, LittleEndian.length_bytes,
    Int.natCast_emod, residue, Int.emod_emod, Int.emod_bmod, fits]

private theorem signed_signedBytes {width : Nat} {value : Int}
    (positive : 1 ≤ width)
    (within : width ≤ 8) (fits : Int.bmod value (256 ^ width) = value) :
    Signed width value (signedBytes value) := by
  obtain ⟨fitsLeast, least, below⟩ := signedSize_spec positive within fits
  have length := length_signedBytes value
  refine { positive := by omega, within := by omega, meant := ?_ }
  rw [← signedNumber_eq_iff (by omega)]
  exact signedNumber_bytes fitsLeast

theorem length_signedBytes_le {width : Nat} {value : Int}
    {written : List UInt8} (within : width ≤ 8)
    (meant : Signed width value written) :
    (signedBytes value).length ≤ written.length := by
  have number := (signedNumber_eq_iff meant.positive value).mpr meant.meant
  have fits : Int.bmod value (256 ^ written.length) = value := by
    rw [← number, signedNumber, Int.bmod_bmod]
  rw [length_signedBytes]
  exact (signedSize_spec meant.positive (Nat.le_trans meant.within within)
    fits).2.2

theorem unsignedSize_spec {value size : Nat} (positive : 1 ≤ size)
    (within : size ≤ 8) (fits : value < 256 ^ size) :
    value < 256 ^ unsignedSize value ∧
      1 ≤ unsignedSize value ∧ unsignedSize value ≤ size := by
  have least := leastSize_spec (fun size =>
    decide (value < 256 ^ size)) positive (show size ≤ 1 + 7 from within)
    (decide_eq_true fits)
  rwa [decide_eq_true_iff] at least

def unsignedBytes (value : Nat) : List UInt8 :=
  LittleEndian.bytes (unsignedSize value) value

@[simp] theorem length_unsignedBytes (value : Nat) :
    (unsignedBytes value).length = unsignedSize value :=
  LittleEndian.length_bytes _ _

private theorem unsigned_unsignedBytes {width value : Nat}
    (positive : 1 ≤ width)
    (within : width ≤ 8) (fits : value < 256 ^ width) :
    Unsigned width value (unsignedBytes value) := by
  obtain ⟨fitsLeast, least, below⟩ := unsignedSize_spec positive within fits
  have length := length_unsignedBytes value
  refine { positive := by omega, within := by omega, meant := ?_ }
  rw [unsignedBytes, LittleEndian.number_bytes, Nat.mod_eq_of_lt fitsLeast]

theorem length_unsignedBytes_le {width value : Nat} {written : List UInt8}
    (within : width ≤ 8) (meant : Unsigned width value written) :
    (unsignedBytes value).length ≤ written.length := by
  have fits : value < 256 ^ written.length := by
    rw [meant.meant]
    exact LittleEndian.number_lt written
  rw [length_unsignedBytes]
  exact (unsignedSize_spec meant.positive (Nat.le_trans meant.within within)
    fits).2.2

theorem keptBytes_eq (width bits : Nat) :
    keptBytes width bits =
      if (LittleEndian.bytes width bits).dropWhile (· = 0) = [] then [0]
      else (LittleEndian.bytes width bits).dropWhile (· = 0) := by
  rw [keptBytes]
  split
  · rename_i nothing
    rw [if_pos nothing]
  · rename_i some
    rw [if_neg some]

private theorem highOrder_keptBytes {width : Nat} (positive : 1 ≤ width)
    (bits : Nat) :
    HighOrder width bits (keptBytes width bits) := by
  have length := LittleEndian.length_bytes width bits
  rw [keptBytes_eq]
  split
  · rename_i nothing
    refine { positive := Nat.le_refl 1, within := positive, meant := ?_ }
    have zeros : ∀ byte ∈ LittleEndian.bytes width bits, byte = 0 := by
      intro byte member
      exact of_decide_eq_true (List.dropWhile_eq_nil_iff.mp nothing byte member)
    rw [List.eq_replicate_of_mem zeros, length, List.length_singleton,
      ← List.replicate_succ', Nat.sub_add_cancel positive]
  · rename_i some
    have split := List.takeWhile_append_dropWhile (p := fun byte => byte = 0)
      (l := LittleEndian.bytes width bits)
    have counted := congrArg List.length split
    rw [List.length_append, length] at counted
    have zeros : ∀ byte ∈ (LittleEndian.bytes width bits).takeWhile (· = 0),
        byte = 0 := by
      intro byte member
      have isZero := List.mem_takeWhile_imp member
      exact of_decide_eq_true isZero
    refine {
      positive := List.length_pos_iff.mpr some
      within := by omega
      meant := ?_ }
    rw [← Nat.eq_sub_of_add_eq counted, ← List.eq_replicate_of_mem zeros, split]

theorem length_keptBytes_le {width bits : Nat} {written : List UInt8}
    (meant : HighOrder width bits written) :
    (keptBytes width bits).length ≤ written.length := by
  have dropped : (LittleEndian.bytes width bits).dropWhile (· = 0) =
      written.dropWhile (· = 0) := by
    rw [meant.meant]
    apply List.dropWhile_append_of_pos
    intro byte member
    exact decide_eq_true (List.eq_of_mem_replicate member)
  rw [keptBytes_eq, dropped]
  split
  · exact meant.positive
  · exact List.length_dropWhile_le _ _

namespace EncodedValue

/-- The fewest bytes of the content of a number, a pattern or an index. -/
def contentBytes : EncodedValue → List UInt8
  | .byte value => signedBytes value.toInt
  | .short value => signedBytes value.toInt
  | .char value => unsignedBytes value.toNat
  | .int value => signedBytes value.toInt
  | .long value => signedBytes value.toInt
  | .float bits => keptBytes 4 bits.toNat
  | .double bits => keptBytes 8 bits.toNat
  | .methodType index => unsignedBytes index.toNat
  | .methodHandle index => unsignedBytes index.toNat
  | .string index => unsignedBytes index.toNat
  | .type index => unsignedBytes index.toNat
  | .field index => unsignedBytes index.toNat
  | .method index => unsignedBytes index.toNat
  | .enum index => unsignedBytes index.toNat
  | .array _ | .nested _ _ | .null | .bool _ => []

theorem canonical_of_sized {value : EncodedValue}
    (sized : value.typeCode < 0x1c) :
    value.canonical = sizedValue value.typeCode value.contentBytes := by
  cases value with
  | array values => exact absurd sized (Nat.lt_irrefl _)
  | nested type elements => exact absurd sized (by simp [typeCode])
  | null => exact absurd sized (by simp [typeCode])
  | bool value => exact absurd sized (by simp [typeCode])
  | _ => rfl

private theorem sizedContent_contentBytes {value : EncodedValue}
    (sized : value.typeCode < 0x1c) :
    SizedContent value value.contentBytes := by
  cases value with
  | byte value =>
      exact signed_signedBytes (by decide) (by decide) value.toInt_bmod
  | short value =>
      exact signed_signedBytes (by decide) (by decide) value.toInt_bmod
  | int value =>
      exact signed_signedBytes (by decide) (by decide) value.toInt_bmod
  | long value =>
      exact signed_signedBytes (by decide) (by decide) value.toInt_bmod
  | char value =>
      exact unsigned_unsignedBytes (by decide) (by decide) value.toNat_lt
  | float bits => exact highOrder_keptBytes (by decide) _
  | double bits => exact highOrder_keptBytes (by decide) _
  | methodType index | methodHandle index | string index | type index
  | field index | method index | enum index =>
      exact unsigned_unsignedBytes (by decide) (by decide) index.toNat_lt
  | array values => exact absurd sized (Nat.lt_irrefl _)
  | nested type elements => exact absurd sized (by simp [typeCode])
  | null => exact absurd sized (by simp [typeCode])
  | bool value => exact absurd sized (by simp [typeCode])

theorem length_contentBytes_le {value : EncodedValue} {written : List UInt8}
    (meant : SizedContent value written) :
    value.contentBytes.length ≤ written.length := by
  cases value with
  | byte value | short value | int value | long value =>
      exact length_signedBytes_le (by decide) meant
  | float bits | double bits => exact length_keptBytes_le meant
  | char value => exact length_unsignedBytes_le (by decide) meant
  | methodType index | methodHandle index | string index | type index
  | field index | method index | enum index =>
      exact length_unsignedBytes_le (by decide) meant
  | array values => exact meant.elim
  | nested type elements => exact meant.elim
  | null => exact meant.elim
  | bool value => exact meant.elim

end EncodedValue

private theorem SizedContent.length_bounds {value : EncodedValue}
    {written : List UInt8} (meant : SizedContent value written) :
    1 ≤ written.length ∧ written.length ≤ 8 := by
  cases value with
  | byte value | short value | int value | long value | float bits
  | double bits | char value
  | methodType index | methodHandle index | string index | type index
  | field index | method index | enum index =>
      exact ⟨meant.positive, Nat.le_trans meant.within (by decide)⟩
  | array values => exact meant.elim
  | nested type elements => exact meant.elim
  | null => exact meant.elim
  | bool value => exact meant.elim

private theorem headerByte_toNat (type argument : Nat) (small : type < 32)
    (argumentSmall : argument < 8) :
    (headerByte type argument).toNat = 32 * argument + type := by
  rw [headerByte, UInt8.toNat_ofNat']
  omega

private theorem encodes_canonical_of_sized {value : EncodedValue}
    (sized : value.typeCode < 0x1c) : Encodes value value.canonical := by
  have meant := value.sizedContent_contentBytes sized
  obtain ⟨positive, within⟩ := meant.length_bounds
  have header := headerByte_toNat value.typeCode
    (value.contentBytes.length - 1) (by omega) (by omega)
  rw [value.canonical_of_sized sized, sizedValue]
  exact Encodes.sized (by omega) (by omega) meant

/-! ### Values with values inside -/

/-- Trees of values where all arrays and annotations have fewer than 2 ^ 32
values inside. -/
inductive CountsFit : EncodedValue → Prop
  | single {value : EncodedValue} :
      value.typeCode ≠ 0x1c → value.typeCode ≠ 0x1d → CountsFit value
  | array {values : List EncodedValue} :
      values.length < UInt32.size → (∀ value ∈ values, CountsFit value) →
        CountsFit (.array values)
  | nested {type : UInt32} {elements : List Element} :
      elements.length < UInt32.size →
      (∀ element ∈ elements, CountsFit element.2) →
        CountsFit (.nested type elements)

def elementBytes (element : Element) : List UInt8 :=
  Uleb128.encode element.1 ++ element.2.canonical

private theorem canonicalList_eq (values : List EncodedValue) :
    EncodedValue.canonicalList values =
      values.flatMap EncodedValue.canonical := by
  induction values with
  | nil => rfl
  | cons value rest ih =>
      rw [EncodedValue.canonicalList, ih, List.flatMap_cons]

private theorem canonicalElements_eq (elements : List Element) :
    EncodedValue.canonicalElements elements =
      elements.flatMap elementBytes := by
  induction elements with
  | nil => rfl
  | cons element rest ih =>
      rw [EncodedValue.canonicalElements, ih, List.flatMap_cons, elementBytes]

theorem canonical_array (values : List EncodedValue) :
    (EncodedValue.array values).canonical =
      headerByte 0x1c 0 ::
        (countBytes values ++ values.flatMap EncodedValue.canonical) := by
  rw [EncodedValue.canonical, canonicalList_eq]

theorem canonical_nested (type : UInt32) (elements : List Element) :
    (EncodedValue.nested type elements).canonical =
      headerByte 0x1d 0 :: (Uleb128.encode type ++
        (countBytes elements ++ elements.flatMap elementBytes)) := by
  rw [EncodedValue.canonical, canonicalElements_eq, List.append_assoc]

private theorem written_countBytes {α : Type} {values : List α}
    (fits : values.length < UInt32.size) :
    ∃ count, Uleb128.Written count (countBytes values) ∧
      count.toNat = values.length :=
  ⟨_, Uleb128.written_encode _, UInt32.toNat_ofNat_of_lt' fits⟩

theorem length_countBytes_le {α : Type} {values : List α} {count : UInt32}
    {size : List UInt8} (counted : Uleb128.Written count size)
    (enough : count.toNat = values.length) :
    (countBytes values).length ≤ size.length := by
  rw [countBytes, ← enough, UInt32.ofNat_toNat]
  exact Uleb128.length_encode_le counted

private theorem encodes_canonical {value : EncodedValue}
    (fits : CountsFit value) :
    Encodes value value.canonical := by
  induction fits with
  | @single value notArray notNested =>
      by_cases sized : value.typeCode < 0x1c
      · exact encodes_canonical_of_sized sized
      cases value with
      | null => exact Encodes.null rfl
      | bool value => cases value <;> exact Encodes.bool rfl (by decide)
      | array values => exact absurd rfl notArray
      | nested type elements => exact absurd rfl notNested
      | _ => exact absurd (by simp [EncodedValue.typeCode]) sized
  | array enough _ ih =>
      obtain ⟨count, counted, same⟩ := written_countBytes enough
      rw [canonical_array]
      exact Encodes.array rfl counted same (sequence_flatMap ih)
  | nested enough _ ih =>
      obtain ⟨count, counted, same⟩ := written_countBytes enough
      rw [canonical_nested]
      refine Encodes.nested rfl (Uleb128.written_encode _) counted same
        (sequence_flatMap ?_)
      intro element member
      exact NamedValue.mk (Uleb128.written_encode _) (ih element member)

example : (EncodedValue.array [.int (-1), .float 0x3f800000]).canonical =
    [0x1c, 0x02, 0x04, 0xff, 0x30, 0x80, 0x3f] := by
  decide

theorem Encodes.shortest {value : EncodedValue} {written : List UInt8}
    (encoded : Encodes value written) :
    CountsFit value ∧ value.canonical.length ≤ written.length := by
  cases encoded with
  | sized ofType counted meant =>
      have sized := meant.typeCode_lt
      have least := value.length_contentBytes_le meant
      refine ⟨.single (by omega) (by omega), ?_⟩
      rw [value.canonical_of_sized sized, sizedValue, List.length_cons,
        List.length_cons]
      omega
  | @array values header count size content ofType counted enough each =>
      -- The parts are shorter than the whole, so they come first.
      have parts := each.bounded (fun _ part meant within =>
        have shorter : part.length ≤ content.length := within
        meant.shortest) (Nat.le_refl _)
      have least := parts.length_flatMap_le fun _ _ both => both.2
      have countLeast := length_countBytes_le counted enough
      refine ⟨.array ?_ (parts.forall_mem fun _ _ both => both.1), ?_⟩
      · rw [← enough]
        exact count.toNat_lt
      · rw [canonical_array]
        simp only [List.length_cons, List.length_append]
        omega
  | @nested type elements header count front size content ofType isType counted
      enough each =>
      have parts : Sequence (fun element part => CountsFit element.2 ∧
          (elementBytes element).length ≤ part.length) elements content :=
        each.bounded (fun element part meant within => by
          cases meant with
          | @mk name named nameBytes back isName meant =>
              have shorter : back.length ≤ content.length := by
                rw [List.length_append] at within
                omega
              have inner := meant.shortest
              have nameLeast := Uleb128.length_encode_le isName
              refine ⟨inner.1, ?_⟩
              rw [elementBytes, List.length_append, List.length_append]
              exact Nat.add_le_add nameLeast inner.2) (Nat.le_refl _)
      have least := parts.length_flatMap_le fun _ _ both => both.2
      have typeLeast := Uleb128.length_encode_le isType
      have countLeast := length_countBytes_le counted enough
      refine ⟨.nested ?_ (parts.forall_mem fun _ _ both => both.1), ?_⟩
      · rw [← enough]
        exact count.toNat_lt
      · rw [canonical_nested]
        simp only [List.length_cons, List.length_append]
        omega
  | null ofType => exact ⟨.single (by decide) (by decide), Nat.le_refl 1⟩
  | bool ofType meant =>
      exact ⟨.single (by simp [EncodedValue.typeCode])
        (by simp [EncodedValue.typeCode]), Nat.le_refl 1⟩
termination_by written.length

end Dex

namespace Reader

open Dex

private theorem encodedValue_canonical {value : EncodedValue}
    (fits : CountsFit value)
    (before after : List UInt8) :
    encodedValue (before ++ value.canonical ++ after).toArray before.length =
      .ok (value, before.length + value.canonical.length) := by
  apply (exact_encodedValue _ before.length _ (Nat.le_refl _) _ _).mpr
  refine ⟨value.canonical, ?_, rfl, encodes_canonical fits⟩
  rw [List.append_assoc, List.drop_left]
  exact List.prefix_append _ _

/-- Writing canonically and reading are inverse to each other, and whatever a
value was read from has at least as many bytes as its canonical form. -/
theorem canonical_inverse_shortest :
    (∀ value before after, CountsFit value →
      encodedValue (before ++ value.canonical ++ after).toArray before.length =
        .ok (value, before.length + value.canonical.length)) ∧
    ∀ bytes start value last,
      encodedValue bytes start = .ok (value, last) →
        start ≤ last ∧ value.canonical.length ≤ last - start ∧
        ∀ before after,
          encodedValue (before ++ value.canonical ++ after).toArray
              before.length =
            .ok (value, before.length + value.canonical.length) := by
  refine ⟨fun value before after fits =>
    encodedValue_canonical fits before after, ?_⟩
  intro bytes start value last read
  obtain ⟨written, stands, ends, encoded⟩ :=
    (exact_encodedValue bytes start start (Nat.le_refl _) value last).mp read
  obtain ⟨fits, least⟩ := encoded.shortest
  refine ⟨by omega, by omega, ?_⟩
  exact encodedValue_canonical fits

/-- A nested annotation that holds a NaN with a payload, and an array. -/
def nestedTree : EncodedValue :=
  .nested 300 [(1, .float 0x7fc00001), (2, .array [.long (-1), .null])]

private theorem countsFit_nestedTree : CountsFit nestedTree := by
  refine CountsFit.nested (by decide) ?_
  simp only [List.forall_mem_cons, List.not_mem_nil, false_implies,
    implies_true, and_true]
  refine ⟨.single (by decide) (by decide), .array (by decide) ?_⟩
  simp only [List.forall_mem_cons, List.not_mem_nil, false_implies,
    implies_true, and_true]
  exact ⟨.single (by decide) (by decide), .single (by decide) (by decide)⟩

/-- The tree is read back among other bytes, and an integer that was read from
three bytes takes two. -/
theorem nestedTree_reads_back :
    CountsFit nestedTree ∧
    encodedValue ([0x07] ++ nestedTree.canonical ++ [0x09]).toArray 1 =
      .ok (nestedTree, 1 + nestedTree.canonical.length) ∧
    encodedValue #[0x24, 0xff, 0xff] 0 = .ok (.int (-1), 3) ∧
    (EncodedValue.int (-1)).canonical.length ≤ 3 - 0 :=
  ⟨countsFit_nestedTree,
    canonical_inverse_shortest.1 nestedTree [0x07] [0x09] countsFit_nestedTree,
    rfl, (canonical_inverse_shortest.2 #[0x24, 0xff, 0xff] 0 _ 3 rfl).2.1⟩

end Reader
end DexCensus
