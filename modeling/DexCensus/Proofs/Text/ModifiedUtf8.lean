/-
Modified UTF-8 is read exactly, and never means another text than UTF-8.

As for UTF-8, a character is read off the front of a byte sequence exactly if
the bytes that write it stand there.  A character that the two spellings write
differently starts, in modified UTF-8, with bytes that start no character of
UTF-8; hence bytes that are well formed in both have one text.
-/

import DexCensus.Proofs.Text.Utf8
import DexCensus.Text.ModifiedUtf8

namespace DexCensus
namespace ModifiedUtf8

open Utf8 (IsScalar isContinuation isSecondOfThree isContinuation_iff
  isSecondOfThree_iff)

@[simp] theorem isHighSurrogate_iff (second : UInt8) :
    isHighSurrogate second = true ↔
      160 ≤ second.toNat ∧ second.toNat ≤ 175 :=
  Utf8.between_iff second 0xa0 0xaf

theorem notSecondOfThree_of_isHighSurrogate {second : UInt8}
    (isHigh : isHighSurrogate second = true) :
    isSecondOfThree 0xed second = false := by
  have bounds := (isHighSurrogate_iff second).mp isHigh
  have lead : (0xed : UInt8).toNat = 237 := rfl
  rw [← Bool.not_eq_true, isSecondOfThree_iff]
  omega

@[simp] theorem isLowSurrogate_iff (second : UInt8) :
    isLowSurrogate second = true ↔
      176 ≤ second.toNat ∧ second.toNat ≤ 191 :=
  Utf8.between_iff second 0xb0 0xbf

theorem eq_highSurrogate_iff {lead second third : UInt8} {payload : Nat} :
    [lead, second, third] = Utf8.threeBytes (0xd800 + payload) ∧
        payload < 1024 ↔
      lead = 0xed ∧ isHighSurrogate second = true ∧
        isContinuation third = true ∧
        payload = surrogatePayload second third := by
  simp only [Utf8.cons_eq_threeBytes_iff, isContinuation_iff,
    isHighSurrogate_iff, surrogatePayload, Utf8.payload, ← UInt8.toNat_inj,
    UInt8.reduceToNat]
  constructor
  · intro written
    omega
  · intro shaped
    omega

theorem eq_lowSurrogate_iff {lead second third : UInt8} {payload : Nat} :
    [lead, second, third] = Utf8.threeBytes (0xdc00 + payload) ∧
        payload < 1024 ↔
      lead = 0xed ∧ isLowSurrogate second = true ∧
        isContinuation third = true ∧
        payload = surrogatePayload second third := by
  simp only [Utf8.cons_eq_threeBytes_iff, isContinuation_iff,
    isLowSurrogate_iff, surrogatePayload, Utf8.payload, ← UInt8.toNat_inj,
    UInt8.reduceToNat]
  constructor
  · intro written
    omega
  · intro shaped
    omega

theorem toNat_paired {high low : Nat} (highSmall : high < 1024)
    (lowSmall : low < 1024) :
    (paired high low).toNat = 0x10000 + high * 1024 + low :=
  Utf8.toNat_ofNat_of_isScalar (Or.inr (by omega))

theorem encodeChar_of_lt {char : Char} (positive : 0 < char.toNat)
    (below : char.toNat < 0x10000) :
    encodeChar char = Utf8.encodeChar char := by
  simp only [encodeChar]
  rw [if_neg (by omega), if_pos below]

private theorem encodeChar_of_le {char : Char} (least : 0x10000 ≤ char.toNat) :
    encodeChar char =
      Utf8.threeBytes (0xd800 + (char.toNat - 0x10000) / 1024)
        ++ Utf8.threeBytes (0xdc00 + (char.toNat - 0x10000) % 1024) := by
  simp only [encodeChar]
  rw [if_neg (by omega), if_neg (by omega)]

/-- The well-formed byte sequences of one character.  Those of UTF-8 stand for
themselves if they have at most three bytes and are not the zero byte. -/
inductive Spelled : Char → List UInt8 → Prop
  | zero : Spelled '\x00' [0xc0, 0x80]
  | plain {char : Char} {written : List UInt8} :
      Utf8.Spelled char written → 0 < char.toNat → char.toNat < 0x10000 →
        Spelled char written
  | pair {second third fifth sixth : UInt8} :
      isHighSurrogate second = true → isContinuation third = true →
      isLowSurrogate fifth = true → isContinuation sixth = true →
        Spelled (paired (surrogatePayload second third)
          (surrogatePayload fifth sixth))
          [0xed, second, third, 0xed, fifth, sixth]

theorem Spelled.encodeChar_eq {char : Char} {written : List UInt8}
    (spelled : Spelled char written) : encodeChar char = written := by
  cases spelled with
  | zero => rfl
  | plain plain positive below =>
      rw [encodeChar_of_lt positive below, plain.encodeChar_eq]
  | @pair second third fifth sixth isHigh continues isLow ends =>
      obtain ⟨highWritten, highSmall⟩ := eq_highSurrogate_iff.mpr
        ⟨rfl, isHigh, continues, rfl⟩
      obtain ⟨lowWritten, lowSmall⟩ := eq_lowSurrogate_iff.mpr
        ⟨rfl, isLow, ends, rfl⟩
      have code := toNat_paired highSmall lowSmall
      have high : (0x10000 + surrogatePayload second third * 1024
          + surrogatePayload fifth sixth - 0x10000) / 1024 =
            surrogatePayload second third := by
        omega
      have low : (0x10000 + surrogatePayload second third * 1024
          + surrogatePayload fifth sixth - 0x10000) % 1024 =
            surrogatePayload fifth sixth := by
        omega
      rw [encodeChar_of_le (by omega), code, high, low, ← highWritten,
        ← lowWritten]
      rfl

theorem spelled_encodeChar (char : Char) : Spelled char (encodeChar char) := by
  by_cases zero : char.toNat = 0
  · have isZero : char = '\x00' := Char.toNat_inj.mp zero
    rw [isZero]
    exact Spelled.zero
  by_cases below : char.toNat < 0x10000
  · have positive := Nat.pos_of_ne_zero zero
    rw [encodeChar_of_lt positive below]
    exact Spelled.plain (Utf8.spelled_encodeChar char) positive below
  · have last : char.toNat < 0x110000 := by
      rcases Utf8.isScalar_toNat char with low | between
      · omega
      · exact between.2
    obtain ⟨_, isHigh, continues, high⟩ := eq_highSurrogate_iff.mp
      ⟨rfl, show (char.toNat - 0x10000) / 1024 < 1024 by omega⟩
    obtain ⟨_, isLow, ends, low⟩ := eq_lowSurrogate_iff.mp
      ⟨rfl, show (char.toNat - 0x10000) % 1024 < 1024 by omega⟩
    have spelled := Spelled.pair isHigh continues isLow ends
    have same : paired ((char.toNat - 0x10000) / 1024)
        ((char.toNat - 0x10000) % 1024) = char := by
      apply Char.toNat_inj.mp
      rw [toNat_paired (by omega) (by omega)]
      omega
    rw [← high, ← low, same] at spelled
    rwa [spelled.encodeChar_eq]

/-! ### Texts -/

private theorem decodeFrom?_of_spelled {char : Char} {written : List UInt8}
    (spelled : Spelled char written) (done : List Char) (later : List UInt8) :
    decodeFrom? done (written ++ later) = decodeFrom? (char :: done) later := by
  rw [decodeFrom?.eq_def]
  simp only [UInt8.lt_iff_toNat_lt, ← UInt8.toNat_inj, UInt8.reduceToNat]
  cases spelled with
  | zero => rfl
  | plain plain positive below =>
      cases plain with
      | @one lead small =>
          have code := Utf8.toNat_ofNat_of_isScalar
            (show IsScalar lead.toNat from Or.inl (by omega))
          simp only [List.cons_append, List.nil_append]
          rw [if_neg (by omega), if_pos small]
      | two least high continues =>
          simp only [List.cons_append, List.nil_append]
          rw [if_neg (by omega), if_neg (by omega), if_neg (by omega),
            if_neg (by omega), if_pos high, if_pos continues]
      | @three lead second third least high follows continues =>
          have second := (isSecondOfThree_iff _ _).mp follows
          have follow : isContinuation _ = true :=
            (isContinuation_iff _).mpr ⟨second.1, second.2.1⟩
          simp only [List.cons_append, List.nil_append]
          rw [if_neg (by omega), if_neg (by omega), if_neg (by omega),
            if_neg (by omega), if_neg (by omega), if_pos high]
          simp only [isPlainThree, follow, follows, continues, Bool.and_true, if_true]
      | four least high follows continues ends =>
          have low :=
            (Utf8.fourByte_written least high follows continues ends).2
          omega
  | @pair second third fifth sixth isHigh continues isLow ends =>
      have bounds := (isHighSurrogate_iff second).mp isHigh
      have follow : isContinuation second = true :=
        (isContinuation_iff second).mpr ⟨by omega, by omega⟩
      have notPlain := notSecondOfThree_of_isHighSurrogate isHigh
      simp only [List.cons_append, List.nil_append, UInt8.reduceToNat]
      rw [if_neg (by decide), if_neg (by decide), if_neg (by decide),
        if_neg (by decide), if_neg (by decide), if_pos (by decide)]
      simp only [isPlainThree, follow, notPlain, isHigh, isLow, continues, ends,
        Bool.and_true, Bool.and_false, decide_true, if_true, Bool.false_eq_true,
        if_false]

private theorem spelled_of_decodeFrom? {done chars : List Char} {lead : UInt8}
    {rest : List UInt8} (read : decodeFrom? done (lead :: rest) = some chars) :
    ∃ char others later, Spelled char (lead :: others) ∧
      rest = others ++ later ∧ decodeFrom? (char :: done) later = some chars := by
  rw [decodeFrom?.eq_def] at read
  dsimp only at read
  by_cases zero : lead = 0
  · rw [if_pos zero] at read
    cases read
  rw [if_neg zero] at read
  by_cases one : lead < 0x80
  · rw [if_pos one] at read
    have positive : lead.toNat ≠ 0 :=
      fun same => zero (UInt8.toNat_inj.mp same)
    have small : lead.toNat < 0x80 := UInt8.lt_iff_toNat_lt.mp one
    have code := Utf8.toNat_ofNat_of_isScalar
      (show IsScalar lead.toNat from Or.inl (by omega))
    exact ⟨_, [], rest, .plain (.one small) (by omega) (by omega), rfl, read⟩
  rw [if_neg one] at read
  by_cases null : lead = 0xc0
  · rw [if_pos null] at read
    split at read
    · split at read
      · rename_i second others isSecond
        subst null isSecond
        exact ⟨_, [0x80], others, .zero, rfl, read⟩
      · cases read
    · cases read
  rw [if_neg null] at read
  by_cases overlong : lead < 0xc2
  · rw [if_pos overlong] at read
    cases read
  rw [if_neg overlong] at read
  have least : 0xc2 ≤ lead.toNat :=
    UInt8.le_iff_toNat_le.mp (UInt8.not_lt.mp overlong)
  by_cases two : lead < 0xe0
  · rw [if_pos two] at read
    have below : lead.toNat < 0xe0 := UInt8.lt_iff_toNat_lt.mp two
    split at read
    · split at read
      · rename_i second others continues
        obtain ⟨_, low, high⟩ := Utf8.twoByte_written least below continues
        exact ⟨_, [second], others, .plain (.two least below continues)
          (by omega) (by omega), rfl, read⟩
      · cases read
    · cases read
  rw [if_neg two] at read
  have least : 0xe0 ≤ lead.toNat :=
    UInt8.le_iff_toNat_le.mp (UInt8.not_lt.mp two)
  by_cases three : lead < 0xf0
  case neg =>
    rw [if_neg three] at read
    cases read
  rw [if_pos three] at read
  have below : lead.toNat < 0xf0 := UInt8.lt_iff_toNat_lt.mp three
  split at read
  case h_2 => cases read
  rename_i second third others
  split at read
  case isFalse => cases read
  rename_i continuations
  obtain ⟨isSecond, isThird⟩ := Bool.and_eq_true_iff.mp continuations
  split at read
  · rename_i plain
    have follows := (Bool.and_eq_true_iff.mp plain).2
    obtain ⟨_, low, high⟩ :=
      Utf8.threeByte_written least below follows isThird
    exact ⟨_, [second, third], others,
      .plain (.three least below follows isThird) (by omega) high, rfl, read⟩
  split at read
  case isFalse => cases read
  rename_i isHigh
  split at read
  case h_2 => cases read
  rename_i fourth fifth sixth others
  split at read
  case isFalse => cases read
  rename_i isLow
  simp only [Bool.and_eq_true, decide_eq_true_iff] at isHigh isLow
  obtain ⟨isLead, isHigh⟩ := isHigh
  obtain ⟨⟨isFourth, isLow⟩, isSixth⟩ := isLow
  subst isLead isFourth
  exact ⟨_, [second, third, 0xed, fifth, sixth], others,
    .pair isHigh isThird isLow isSixth, rfl, read⟩

@[simp] theorem encode_cons (char : Char) (chars : List Char) :
    encode (char :: chars) = encodeChar char ++ encode chars :=
  List.flatMap_cons

private theorem decodeFrom?_encode (done chars : List Char) :
    decodeFrom? done (encode chars) = some (done.reverse ++ chars) := by
  induction chars generalizing done with
  | nil => rw [List.append_nil]; rfl
  | cons char rest ih =>
      rw [encode_cons, decodeFrom?_of_spelled (spelled_encodeChar char), ih,
        List.reverse_cons, List.append_assoc, List.singleton_append]

private theorem written_of_decodeFrom? {done chars : List Char}
    {bytes : List UInt8}
    (read : decodeFrom? done bytes = some chars) :
    ∃ later, chars = done.reverse ++ later ∧ bytes = encode later := by
  cases bytes with
  | nil =>
      cases read
      exact ⟨[], (List.append_nil _).symm, rfl⟩
  | cons lead rest =>
      obtain ⟨char, others, behind, spelled, split, readOthers⟩ :=
        spelled_of_decodeFrom? read
      have shorter : behind.length < (lead :: rest).length := by
        rw [split, List.length_cons, List.length_append]
        omega
      obtain ⟨later, whole, written⟩ := written_of_decodeFrom? readOthers
      refine ⟨char :: later, ?_, ?_⟩
      · rw [whole, List.reverse_cons, List.append_assoc,
          List.singleton_append]
      · rw [encode_cons, ← written, spelled.encodeChar_eq, split,
          List.cons_append]
termination_by bytes.length

/-- Bytes are read as a text exactly if they are the modified UTF-8 of that
text. -/
theorem decode?_eq_some_iff (bytes : List UInt8) (chars : List Char) :
    decode? bytes = some chars ↔ bytes = encode chars := by
  constructor
  · intro read
    obtain ⟨later, whole, written⟩ := written_of_decodeFrom? read
    rw [List.reverse_nil, List.nil_append] at whole
    rw [whole, written]
  · intro written
    rw [written]
    exact decodeFrom?_encode [] chars

example : decode? [0xc0, 0x80, 0x41, 0xed, 0xa0, 0xbd, 0xed, 0xb8, 0x80] =
    some ['\x00', 'A', '😀'] := by
  decide

theorem zero_notMem_encode (chars : List Char) :
    (0 : UInt8) ∉ encode chars := by
  intro member
  obtain ⟨char, _, inBytes⟩ := List.mem_flatMap.mp member
  have spelled := spelled_encodeChar char
  generalize encodeChar char = written at spelled inBytes
  cases spelled with
  | zero => exact absurd inBytes (by decide)
  | plain plain positive below =>
      rw [plain.eq_of_zero_mem inBytes] at positive
      exact absurd positive (by decide)
  | pair isHigh continues isLow ends =>
      simp [← UInt8.toNat_inj] at inBytes isHigh continues isLow ends
      omega

private theorem Spelled.same_of_front {char other : Char} {lead : UInt8}
    {others later : List UInt8} {more : Nat}
    (spelled : Spelled char (lead :: others))
    (found : Utf8.front lead (others ++ later) = .scalar other more) :
    other = char ∧ more = others.length := by
  cases spelled with
  | zero => cases found
  | plain plain _ _ =>
      rw [Utf8.front_of_spelled plain] at found
      cases found
      exact ⟨rfl, rfl⟩
  | pair isHigh _ _ _ =>
      -- In UTF-8 the second byte of a surrogate cannot follow its lead byte.
      have notPlain := notSecondOfThree_of_isHighSurrogate isHigh
      simp only [List.cons_append, Utf8.front, notPlain] at found
      cases found

theorem eq_of_encode_eq {chars others : List Char}
    (same : Utf8.encode chars = encode others) : chars = others := by
  induction others generalizing chars with
  | nil => exact (Utf8.encode_eq_nil_iff chars).mp same
  | cons char rest ih =>
      have spelled := spelled_encodeChar char
      rw [encode_cons] at same
      cases written : encodeChar char with
      | nil =>
          rw [written] at spelled
          cases spelled with
          | plain impossible _ _ => cases impossible
      | cons lead more =>
          rw [written] at same spelled
          rw [List.cons_append] at same
          obtain ⟨first, size, later, found, split, behind⟩ :=
            Utf8.front_of_encode same.symm
          obtain ⟨sameChar, sameSize⟩ := spelled.same_of_front found
          rw [sameSize, List.drop_left] at behind
          rw [split, sameChar, ih behind.symm]

end ModifiedUtf8
end DexCensus
