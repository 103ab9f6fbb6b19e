/-
String data is read as the text that it writes, in either spelling.

Data is taken exactly if it is the UTF-8 or the modified UTF-8 of some text,
and that text is what is read: no data writes two texts.  An entry of the
string table is read by its data alone, whatever length stands in front and
whatever follows the zero byte behind.
-/

import DexCensus.Proofs.Container
import DexCensus.Proofs.PlainString
import DexCensus.Proofs.Text.ModifiedUtf8

namespace DexCensus

def utf8Bytes (text : String) : List UInt8 :=
  text.toByteArray.data.toList

def modifiedBytes (text : String) : List UInt8 :=
  ModifiedUtf8.encode text.toList

theorem utf8Bytes_eq (text : String) :
    utf8Bytes text = Utf8.encode text.toList :=
  (Utf8.encode_toList text).symm

private theorem eq_of_utf8Bytes_eq {text other : String}
    (same : utf8Bytes text = modifiedBytes other) : text = other := by
  rw [utf8Bytes_eq] at same
  exact String.toList_injective (ModifiedUtf8.eq_of_encode_eq same)

theorem ofList_eq_iff (chars : List Char) (text : String) :
    String.ofList chars = text ↔ chars = text.toList := by
  constructor
  · intro same
    rw [← same, String.toList_ofList]
  · intro same
    rw [same, String.ofList_toList]

namespace StringData

theorem decode_eq_ok_iff (bytes : List UInt8) (text : String) :
    decode bytes = .ok text ↔
      bytes = utf8Bytes text ∨ bytes = modifiedBytes text := by
  rw [utf8Bytes_eq, modifiedBytes, decode]
  cases plain : Utf8.decode bytes with
  | ok chars =>
      have written := (Utf8.decode_eq_ok_iff bytes chars).mp plain
      rw [Except.ok.injEq, ofList_eq_iff]
      constructor
      · intro same
        rw [← same]
        exact Or.inl written
      · intro either
        rcases either with asPlain | asModified
        · rw [asPlain, Utf8.decode_eq_ok_iff _ _ |>.mpr rfl] at plain
          cases plain
          rfl
        · exact ModifiedUtf8.eq_of_encode_eq (written.symm.trans asModified)
  | error fault =>
      have notPlain : bytes ≠ Utf8.encode text.toList := by
        intro written
        rw [(Utf8.decode_eq_ok_iff _ _).mpr written] at plain
        cases plain
      simp only [notPlain, false_or]
      rw [← ModifiedUtf8.decode?_eq_some_iff]
      cases ModifiedUtf8.decode? bytes with
      | none =>
          constructor
          · intro impossible
            cases impossible
          · intro impossible
            cases impossible
      | some chars =>
          simp only [Except.ok.injEq, ofList_eq_iff, Option.some.injEq]

/-- A decoder that takes UTF-8 as it is, otherwise the modified UTF-8 of a text,
and nothing else. -/
structure TakesEither (decoder : List UInt8 → Option String) : Prop where
  plain : ∀ text, decoder (utf8Bytes text) = some text
  modified : ∀ text, (∀ other, modifiedBytes text ≠ utf8Bytes other) →
    decoder (modifiedBytes text) = some text
  only : ∀ {bytes text}, decoder bytes = some text →
    bytes = utf8Bytes text ∨ bytes = modifiedBytes text

theorem takesEither_decode :
    TakesEither fun bytes => (decode bytes).toOption := by
  constructor
  case plain =>
    intro text
    rw [(decode_eq_ok_iff _ text).mpr (Or.inl rfl)]
    rfl
  case modified =>
    intro text _
    rw [(decode_eq_ok_iff _ text).mpr (Or.inr rfl)]
    rfl
  case only =>
    intro bytes text asked
    cases decoded : decode bytes with
    | ok other =>
        rw [decoded] at asked
        cases asked
        exact (decode_eq_ok_iff bytes text).mp decoded
    | error fault =>
        rw [decoded] at asked
        cases asked

/-- Asking such a decoder first and reading what it refuses as UTF-8, with the
fault of that reading, is the decoding of string data. -/
theorem decode_eq_of_takesEither {decoder : List UInt8 → Option String}
    (takes : TakesEither decoder) (bytes : List UInt8) :
    decode bytes =
      match decoder bytes with
      | some text => .ok text
      | none => (Utf8.decode bytes).map String.ofList := by
  cases asked : decoder bytes with
  | some text => exact (decode_eq_ok_iff bytes text).mpr (takes.only asked)
  | none =>
      have notPlain (text : String) : bytes ≠ utf8Bytes text := by
        rintro rfl
        rw [takes.plain] at asked
        cases asked
      have notModified (text : String) : bytes ≠ modifiedBytes text := by
        rintro rfl
        rw [takes.modified text notPlain] at asked
        cases asked
      unfold decode
      cases plain : Utf8.decode bytes with
      | ok chars => rfl
      | error fault =>
          cases modified : ModifiedUtf8.decode? bytes with
          | none => rfl
          | some chars =>
              have written := (ModifiedUtf8.decode?_eq_some_iff _ _).mp modified
              rw [← String.toList_ofList (l := chars)] at written
              exact (notModified _ written).elim

end StringData

namespace Dex

/-- At the place of an entry of the string table there are a length, which may
be any number in any of its spellings, then the bytes of a text and a zero
byte. -/
def HoldsString (segment : Segment) (index : UInt32)
    (payload : List UInt8) : Prop :=
  ∃ offset length counted rest,
    segment.strings[index.toNat]? = some offset ∧
    Uleb128.Written length counted ∧
    segment.data.toList.drop offset.toNat = counted ++ (payload ++ 0 :: rest)

private theorem HoldsString.string_eq {segment : Segment} {index : UInt32}
    {payload : List UInt8} (holds : HoldsString segment index payload)
    (noZero : (0 : UInt8) ∉ payload) :
    segment.string index =
      match StringData.decode payload with
      | .ok text => .ok text
      | .error fault => .error (.badStringData fault) := by
  obtain ⟨offset, length, counted, rest, listed, written, stands⟩ := holds
  have found : Segment.entry .strings segment.strings index = .ok offset := by
    rw [Segment.entry, listed]
  have lengthRead := (Reader.exact_uleb128 offset.toNat (Nat.le_refl _) length
    (offset.toNat + counted.length)).mpr
      ⟨counted, ⟨_, stands.symm⟩, rfl, written⟩
  have behind : payload ++ [0] <+:
      segment.data.toList.drop (offset.toNat + counted.length) := by
    rw [← List.drop_drop, stands, List.drop_left]
    exact ⟨rest, by rw [List.append_assoc, List.singleton_append]⟩
  exact (bind_of_eq_ok found).trans
    (bind_of_eq_ok (stringBytes_valueAt lengthRead behind noZero))

/-- A text is read back from either spelling of it, data is read exactly if it
is in one of the two, and no data spells two texts. -/
theorem string_data_exact :
    (∀ segment index text,
      (HoldsString segment index (modifiedBytes text) →
        segment.string index = .ok text) ∧
      (HoldsString segment index (utf8Bytes text) → '\x00' ∉ text.toList →
        segment.string index = .ok text)) ∧
    (∀ bytes,
      (∃ text, StringData.decode bytes = .ok text) ↔
        (∃ text, bytes = utf8Bytes text) ∨ ∃ text, bytes = modifiedBytes text) ∧
    (∀ bytes text, StringData.decode bytes = .ok text ↔
      bytes = utf8Bytes text ∨ bytes = modifiedBytes text) ∧
    (∀ text other, utf8Bytes text = modifiedBytes other → text = other) ∧
    ∀ segment index payload, HoldsString segment index payload →
      (0 : UInt8) ∉ payload →
      (∀ text, payload ≠ utf8Bytes text ∧ payload ≠ modifiedBytes text) →
        ∃ fault, segment.string index = .error fault ∧
          fault.kind = .malformedContainer := by
  refine ⟨?_, ?_, StringData.decode_eq_ok_iff,
    fun _ _ => eq_of_utf8Bytes_eq, ?_⟩
  · intro segment index text
    constructor
    · intro holds
      rw [holds.string_eq (ModifiedUtf8.zero_notMem_encode _),
        (StringData.decode_eq_ok_iff _ text).mpr (Or.inr rfl)]
    · intro holds noNull
      have noZero : (0 : UInt8) ∉ utf8Bytes text := by
        rw [utf8Bytes_eq]
        exact Utf8.zero_notMem_encode noNull
      rw [holds.string_eq noZero,
        (StringData.decode_eq_ok_iff _ text).mpr (Or.inl rfl)]
  · intro bytes
    simp only [StringData.decode_eq_ok_iff, exists_or]
  · intro segment index payload holds noZero neither
    rw [holds.string_eq noZero]
    cases decoded : StringData.decode payload with
    | ok text =>
        rcases (StringData.decode_eq_ok_iff payload text).mp decoded with
          plain | modified
        · exact absurd plain (neither text).1
        · exact absurd modified (neither text).2
    | error fault => exact ⟨_, rfl, rfl⟩

/-- A segment with one string, whose length takes a byte more than it needs and
whose only character takes two surrogates. -/
def pairedSegment : Segment :=
  { segmentAt #[] 35 with
    strings := #[0]
    data := #[0x81, 0x00, 0xed, 0xa0, 0xbd, 0xed, 0xb8, 0x80, 0x00, 0x07] }

private theorem holdsString_pairedSegment :
    HoldsString pairedSegment 0 (modifiedBytes "😀") :=
  ⟨0, 1, [0x81, 0x00], [0x07], rfl,
    { run := .more (by decide) (.last (by decide))
      short := by decide
      carried := by decide }, by decide⟩

theorem pairedSegment_string :
    HoldsString pairedSegment 0 (modifiedBytes "😀") ∧
      pairedSegment.string 0 = .ok "😀" :=
  ⟨holdsString_pairedSegment,
    (string_data_exact.1 pairedSegment 0 "😀").1 holdsString_pairedSegment⟩

end Dex
end DexCensus
