/-
String data of plain characters.

A character below 128 is its own byte, in both spellings of text.  String data
that holds such characters, none of them zero, is read as their text, whatever
number of characters stands in front.
-/

import DexCensus.Proofs.Computation
import DexCensus.Proofs.Reader.Local
import DexCensus.Proofs.Text.Utf8

namespace DexCensus

def plainByte (char : Char) : UInt8 :=
  UInt8.ofNat char.toNat

/-- Characters that are their own bytes and end no string. -/
def IsPlain (chars : List Char) : Prop :=
  ∀ char ∈ chars, 0 < char.toNat ∧ char.toNat < 128

instance (chars : List Char) : Decidable (IsPlain chars) :=
  List.decidableBAll _ chars

private theorem encode_plain {chars : List Char} (plain : IsPlain chars) :
    Utf8.encode chars = chars.map plainByte := by
  induction chars with
  | nil => rfl
  | cons char rest ih =>
      have below := (plain char List.mem_cons_self).2
      have restPlain : IsPlain rest :=
        fun other member => plain other (List.mem_cons_of_mem char member)
      rw [Utf8.encode_cons, Utf8.encodeChar_of_lt_80 below, ih restPlain]
      rfl

namespace Dex

theorem stringBytes_valueAt {bytes : Bytes} {offset start : Nat}
    {length : UInt32} {text : List UInt8}
    (counted : Reader.uleb128 bytes offset = .ok (length, start))
    (stands : text ++ [0] <+: bytes.toList.drop start)
    (noZero : (0 : UInt8) ∉ text) :
    Segment.stringBytes.valueAt bytes offset = .ok text := by
  have read := (Reader.exact_untilZero start (Nat.le_refl start) text
    (start + (text ++ [0]).length)).mpr
      ⟨text ++ [0], stands, rfl, noZero, rfl⟩
  exact Reader.valueAt_eq_ok_iff.mpr
    ⟨_, Reader.andThen_eq_ok_iff.mpr ⟨length, start, counted, read⟩⟩

theorem string_of_plain {segment : Segment} {index offset length : UInt32}
    {start : Nat} {text : String}
    (listed : Segment.entry .strings segment.strings index = .ok offset)
    (counted : Reader.uleb128 segment.data offset.toNat = .ok (length, start))
    (stands : text.toList.map plainByte ++ [0] <+:
      segment.data.toList.drop start)
    (plain : IsPlain text.toList) : segment.string index = .ok text := by
  have noZero : (0 : UInt8) ∉ text.toList.map plainByte := by
    rw [← encode_plain plain]
    apply Utf8.zero_notMem_encode
    intro member
    exact absurd (plain _ member).1 (by decide)
  have decoded : StringData.decode (text.toList.map plainByte) = .ok text := by
    have read := (Utf8.decode_eq_ok_iff _ _).mpr (encode_plain plain).symm
    rw [StringData.decode, read]
    simp only [String.ofList_toList]
  unfold Segment.string
  refine bind_eq_ok_iff.mpr ⟨offset, listed, ?_⟩
  refine bind_eq_ok_iff.mpr
    ⟨_, stringBytes_valueAt counted stands noZero, ?_⟩
  rw [decoded]

theorem typeDescriptor_of_plain {segment : Segment}
    {type index offset length : UInt32} {start : Nat} {text : String}
    (typeListed : Segment.entry .types segment.types type = .ok index)
    (listed : Segment.entry .strings segment.strings index = .ok offset)
    (counted : Reader.uleb128 segment.data offset.toNat = .ok (length, start))
    (stands : text.toList.map plainByte ++ [0] <+:
      segment.data.toList.drop start)
    (plain : IsPlain text.toList) : segment.typeDescriptor type = .ok text :=
  bind_eq_ok_iff.mpr
    ⟨index, typeListed, string_of_plain listed counted stands plain⟩

end Dex
end DexCensus
