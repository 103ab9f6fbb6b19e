/-
UTF-8 keeps the order of text.

A text stands before another one in the order of their code points exactly if
its UTF-8 stands before that of the other one in the order of their bytes.  A
greater code point has greater bytes from the first place on where they
differ, so what follows the characters does not matter.
-/

import DexCensus.Proofs.StringData

namespace DexCensus
namespace Utf8

private theorem fourBytes_append_lt {low high : Nat} (below : low < high)
    (bound : high < 0x110000) (rest others : List UInt8) :
    fourBytes low ++ rest < fourBytes high ++ others := by
  simp only [fourBytes, List.cons_append, List.nil_append,
    List.cons_lt_cons_iff, UInt8.lt_iff_toNat_lt, ← UInt8.toNat_inj,
    toNat_continuation, UInt8.toNat_ofNat']
  have lowLead : (240 + low / 262144) % 2 ^ 8 = 240 + low / 262144 := by omega
  have highLead : (240 + high / 262144) % 2 ^ 8 = 240 + high / 262144 := by
    omega
  rw [lowLead, highLead]
  rcases Nat.lt_or_ge (low / 262144) (high / 262144) with less | notLess
  · exact Or.inl (by omega)
  refine Or.inr ⟨by omega, ?_⟩
  rcases Nat.lt_or_ge (low / 4096) (high / 4096) with less | notLess
  · exact Or.inl (by omega)
  refine Or.inr ⟨by omega, ?_⟩
  omega

private theorem encodeChar_append_lt {left right : Char} (below : left < right)
    (rest others : List UInt8) :
    encodeChar left ++ rest < encodeChar right ++ others := by
  have codes : left.toNat < right.toNat := below
  have bound : right.toNat < 0x110000 := by
    have scalar := isScalar_toNat right
    unfold IsScalar at scalar
    omega
  unfold encodeChar
  generalize left.toNat = low at codes
  generalize right.toNat = high at codes bound
  -- Fewer bytes have a lesser lead byte, and two of a length differ in a digit.
  by_cases longest : 0x10000 ≤ low
  · simp only [show ¬ low < 0x80 by omega, show ¬ low < 0x800 by omega,
      show ¬ low < 0x10000 by omega, show ¬ high < 0x80 by omega,
      show ¬ high < 0x800 by omega, show ¬ high < 0x10000 by omega,
      if_false]
    exact fourBytes_append_lt codes bound rest others
  · simp only
    repeat' split
    all_goals
      simp only [twoBytes, threeBytes, fourBytes, List.cons_append,
        List.nil_append, List.cons_lt_cons_iff, UInt8.lt_iff_toNat_lt,
        ← UInt8.toNat_inj, toNat_continuation, UInt8.toNat_ofNat']
      omega

private theorem encode_lt_encode {left right : List Char}
    (below : left < right) :
    encode left < encode right := by
  induction below with
  | @nil char rest =>
      have nonempty : encode (char :: rest) ≠ [] := by
        rw [encode, List.flatMap_cons]
        exact List.append_ne_nil_of_left_ne_nil (encodeChar_ne_nil char) _
      obtain ⟨byte, bytes, whole⟩ := List.exists_cons_of_ne_nil nonempty
      rw [whole]
      exact List.nil_lt_cons byte bytes
  | rel less => exact encodeChar_append_lt less _ _
  | cons _ ih => exact List.append_left_lt ih

private theorem encode_lt_encode_iff (left right : List Char) :
    encode left < encode right ↔ left < right := by
  refine ⟨fun below => ?_, encode_lt_encode⟩
  apply List.not_le.mp
  intro notBelow
  rcases List.le_iff_lt_or_eq.mp notBelow with above | same
  · exact List.lt_asymm below (encode_lt_encode above)
  · rw [same] at below
    exact List.lt_irrefl _ below

end Utf8

/-- Texts are in order exactly if their bytes are. -/
theorem utf8Bytes_lt_iff (left right : String) :
    utf8Bytes left < utf8Bytes right ↔ left < right := by
  rw [utf8Bytes_eq, utf8Bytes_eq]
  exact Utf8.encode_lt_encode_iff left.toList right.toList

theorem utf8Bytes_le_iff (left right : String) :
    utf8Bytes left ≤ utf8Bytes right ↔ left ≤ right :=
  not_congr (utf8Bytes_lt_iff right left)

end DexCensus
