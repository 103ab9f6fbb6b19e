/-
UTF-8 is read exactly.

A byte sequence starts with a character, as strict reading sees it, exactly if
the bytes that write the character stand there.  By induction over the
characters, a byte sequence is read as a text exactly if it is the UTF-8 of
that text, which is the UTF-8 of the core library.
-/

import DexCensus.Text.Utf8

namespace DexCensus
namespace Utf8

/-- The numbers that are characters: no surrogates, and nothing above the last
code point. -/
def IsScalar (code : Nat) : Prop :=
  code < 0xd800 ∨ 0xdfff < code ∧ code < 0x110000

theorem isScalar_toNat (char : Char) : IsScalar char.toNat :=
  char.valid

theorem toNat_ofNat_of_isScalar {code : Nat} (scalar : IsScalar code) :
    (Char.ofNat code).toNat = code := by
  have valid : code.isValidChar := scalar
  rw [Char.ofNat, dif_pos valid]
  rfl

@[simp] theorem toNat_continuation (value : Nat) :
    (continuation value).toNat = 128 + value % 64 := by
  rw [continuation, UInt8.toNat_ofNat']
  omega

theorem between_iff (byte low high : UInt8) :
    (decide (low ≤ byte) && decide (byte ≤ high)) = true ↔
      low.toNat ≤ byte.toNat ∧ byte.toNat ≤ high.toNat := by
  rw [Bool.and_eq_true, decide_eq_true_iff, decide_eq_true_iff,
    UInt8.le_iff_toNat_le, UInt8.le_iff_toNat_le]

@[simp] theorem isContinuation_iff (byte : UInt8) :
    isContinuation byte = true ↔ 128 ≤ byte.toNat ∧ byte.toNat ≤ 191 :=
  between_iff byte 0x80 0xbf

@[simp] theorem isSecondOfThree_iff (lead second : UInt8) :
    isSecondOfThree lead second = true ↔
      128 ≤ second.toNat ∧ second.toNat ≤ 191 ∧
        (lead.toNat = 224 → 160 ≤ second.toNat) ∧
        (lead.toNat = 237 → second.toNat ≤ 159) := by
  simp only [isSecondOfThree, ← UInt8.toNat_inj, UInt8.reduceToNat]
  split
  · simp only [between_iff, UInt8.reduceToNat]
    omega
  split
  · simp only [between_iff, UInt8.reduceToNat]
    omega
  · rw [isContinuation_iff]
    omega

@[simp] theorem isSecondOfFour_iff (lead second : UInt8) :
    isSecondOfFour lead second = true ↔
      128 ≤ second.toNat ∧ second.toNat ≤ 191 ∧
        (lead.toNat = 240 → 144 ≤ second.toNat) ∧
        (lead.toNat = 244 → second.toNat ≤ 143) := by
  simp only [isSecondOfFour, ← UInt8.toNat_inj, UInt8.reduceToNat]
  split
  · simp only [between_iff, UInt8.reduceToNat]
    omega
  split
  · simp only [between_iff, UInt8.reduceToNat]
    omega
  · rw [isContinuation_iff]
    omega

@[simp] theorem cons_eq_twoBytes_iff {lead second : UInt8} {code : Nat} :
    [lead, second] = twoBytes code ↔
      lead.toNat = (192 + code / 64) % 256 ∧
        second.toNat = 128 + code % 64 := by
  simp [twoBytes, ← UInt8.toNat_inj]

@[simp] theorem cons_eq_threeBytes_iff {lead second third : UInt8}
    {code : Nat} :
    [lead, second, third] = threeBytes code ↔
      lead.toNat = (224 + code / 4096) % 256 ∧
        second.toNat = 128 + code / 64 % 64 ∧
        third.toNat = 128 + code % 64 := by
  simp [threeBytes, ← UInt8.toNat_inj]

@[simp] theorem cons_eq_fourBytes_iff {lead second third fourth : UInt8}
    {code : Nat} :
    [lead, second, third, fourth] = fourBytes code ↔
      lead.toNat = (240 + code / 262144) % 256 ∧
        second.toNat = 128 + code / 4096 % 64 ∧
        third.toNat = 128 + code / 64 % 64 ∧
        fourth.toNat = 128 + code % 64 := by
  simp [fourBytes, ← UInt8.toNat_inj]

theorem eq_twoBytes_iff {lead second : UInt8} {code : Nat} :
    [lead, second] = twoBytes code ∧ 0x80 ≤ code ∧ code < 0x800 ↔
      0xc2 ≤ lead.toNat ∧ lead.toNat < 0xe0 ∧ isContinuation second = true ∧
        code = lead.toNat % 32 * 64 + payload second := by
  rw [cons_eq_twoBytes_iff, isContinuation_iff, payload]
  have leadBound := lead.toNat_lt
  constructor
  · intro written
    omega
  · intro shaped
    omega

theorem eq_threeBytes_iff {lead second third : UInt8} {code : Nat} :
    [lead, second, third] = threeBytes code ∧ 0x800 ≤ code ∧ code < 0x10000 ∧
        IsScalar code ↔
      0xe0 ≤ lead.toNat ∧ lead.toNat < 0xf0 ∧
        isSecondOfThree lead second = true ∧ isContinuation third = true ∧
        code = lead.toNat % 16 * 4096 + payload second * 64 + payload third := by
  simp only [cons_eq_threeBytes_iff, isContinuation_iff, isSecondOfThree_iff,
    payload, IsScalar]
  have leadBound := lead.toNat_lt
  constructor
  · intro written
    omega
  · intro shaped
    omega

theorem eq_fourBytes_iff {lead second third fourth : UInt8} {code : Nat} :
    [lead, second, third, fourth] = fourBytes code ∧ 0x10000 ≤ code ∧
        IsScalar code ↔
      0xf0 ≤ lead.toNat ∧ lead.toNat < 0xf5 ∧
        isSecondOfFour lead second = true ∧ isContinuation third = true ∧
        isContinuation fourth = true ∧
        code = lead.toNat % 8 * 262144 + payload second * 4096
          + payload third * 64 + payload fourth := by
  simp only [cons_eq_fourBytes_iff, isContinuation_iff, isSecondOfFour_iff,
    payload, IsScalar]
  have leadBound := lead.toNat_lt
  constructor
  · intro written
    omega
  · intro shaped
    omega

/-! ### Characters -/

theorem twoByte_written {lead second : UInt8} (least : 0xc2 ≤ lead.toNat)
    (below : lead.toNat < 0xe0) (continues : isContinuation second = true) :
    [lead, second] = twoBytes (twoByte lead second).toNat ∧
      0x80 ≤ (twoByte lead second).toNat ∧
      (twoByte lead second).toNat < 0x800 := by
  have written := eq_twoBytes_iff.mpr ⟨least, below, continues, rfl⟩
  rwa [twoByte, toNat_ofNat_of_isScalar (Or.inl (by omega))]

theorem threeByte_written {lead second third : UInt8}
    (least : 0xe0 ≤ lead.toNat) (below : lead.toNat < 0xf0)
    (follows : isSecondOfThree lead second = true)
    (continues : isContinuation third = true) :
    [lead, second, third] = threeBytes (threeByte lead second third).toNat ∧
      0x800 ≤ (threeByte lead second third).toNat ∧
      (threeByte lead second third).toNat < 0x10000 := by
  obtain ⟨same, low, high, scalar⟩ := eq_threeBytes_iff.mpr
    ⟨least, below, follows, continues, rfl⟩
  rw [threeByte, toNat_ofNat_of_isScalar scalar]
  exact ⟨same, low, high⟩

theorem fourByte_written {lead second third fourth : UInt8}
    (least : 0xf0 ≤ lead.toNat) (below : lead.toNat < 0xf5)
    (follows : isSecondOfFour lead second = true)
    (continues : isContinuation third = true)
    (ends : isContinuation fourth = true) :
    [lead, second, third, fourth] =
        fourBytes (fourByte lead second third fourth).toNat ∧
      0x10000 ≤ (fourByte lead second third fourth).toNat := by
  obtain ⟨same, low, scalar⟩ := eq_fourBytes_iff.mpr
    ⟨least, below, follows, continues, ends, rfl⟩
  rw [fourByte, toNat_ofNat_of_isScalar scalar]
  exact ⟨same, low⟩

/-- The well-formed byte sequences of one character: none is overlong, none
writes a surrogate, and none goes beyond the last code point. -/
inductive Spelled : Char → List UInt8 → Prop
  | one {lead : UInt8} :
      lead.toNat < 0x80 → Spelled (Char.ofNat lead.toNat) [lead]
  | two {lead second : UInt8} :
      0xc2 ≤ lead.toNat → lead.toNat < 0xe0 → isContinuation second = true →
        Spelled (twoByte lead second) [lead, second]
  | three {lead second third : UInt8} :
      0xe0 ≤ lead.toNat → lead.toNat < 0xf0 →
      isSecondOfThree lead second = true → isContinuation third = true →
        Spelled (threeByte lead second third) [lead, second, third]
  | four {lead second third fourth : UInt8} :
      0xf0 ≤ lead.toNat → lead.toNat < 0xf5 →
      isSecondOfFour lead second = true → isContinuation third = true →
      isContinuation fourth = true →
        Spelled (fourByte lead second third fourth)
          [lead, second, third, fourth]

theorem encodeChar_of_lt_80 {char : Char} (small : char.toNat < 0x80) :
    encodeChar char = [UInt8.ofNat char.toNat] :=
  if_pos small

theorem encodeChar_of_lt_800 {char : Char} (least : 0x80 ≤ char.toNat)
    (below : char.toNat < 0x800) :
    encodeChar char = twoBytes char.toNat := by
  simp only [encodeChar]
  rw [if_neg (by omega), if_pos below]

theorem encodeChar_of_lt_10000 {char : Char} (least : 0x800 ≤ char.toNat)
    (below : char.toNat < 0x10000) :
    encodeChar char = threeBytes char.toNat := by
  simp only [encodeChar]
  rw [if_neg (by omega), if_neg (by omega), if_pos below]

theorem encodeChar_of_le {char : Char} (least : 0x10000 ≤ char.toNat) :
    encodeChar char = fourBytes char.toNat := by
  simp only [encodeChar]
  rw [if_neg (by omega), if_neg (by omega), if_neg (by omega)]

theorem Spelled.encodeChar_eq {char : Char} {written : List UInt8}
    (spelled : Spelled char written) : encodeChar char = written := by
  cases spelled with
  | @one lead small =>
      have code : (Char.ofNat lead.toNat).toNat = lead.toNat :=
        toNat_ofNat_of_isScalar (Or.inl (by omega))
      rw [encodeChar_of_lt_80 (by omega), code, UInt8.ofNat_toNat]
  | two least below continues =>
      obtain ⟨same, low, high⟩ := twoByte_written least below continues
      rw [encodeChar_of_lt_800 low high, ← same]
  | three least below follows continues =>
      obtain ⟨same, low, high⟩ :=
        threeByte_written least below follows continues
      rw [encodeChar_of_lt_10000 low high, ← same]
  | four least below follows continues ends =>
      obtain ⟨same, low⟩ :=
        fourByte_written least below follows continues ends
      rw [encodeChar_of_le low, ← same]

theorem spelled_encodeChar (char : Char) : Spelled char (encodeChar char) := by
  have scalar := isScalar_toNat char
  by_cases one : char.toNat < 0x80
  · have lead : (UInt8.ofNat char.toNat).toNat = char.toNat := by
      rw [UInt8.toNat_ofNat']
      omega
    have spelled := Spelled.one
      (show (UInt8.ofNat char.toNat).toNat < 0x80 by omega)
    rw [lead, Char.ofNat_toNat] at spelled
    rwa [encodeChar_of_lt_80 one]
  by_cases two : char.toNat < 0x800
  · obtain ⟨least, below, continues, code⟩ := eq_twoBytes_iff.mp
      ⟨rfl, Nat.not_lt.mp one, two⟩
    have spelled := Spelled.two least below continues
    rw [twoByte, ← code, Char.ofNat_toNat] at spelled
    rwa [encodeChar_of_lt_800 (by omega) two]
  by_cases three : char.toNat < 0x10000
  · obtain ⟨least, below, follows, continues, code⟩ := eq_threeBytes_iff.mp
      ⟨rfl, Nat.not_lt.mp two, three, scalar⟩
    have spelled := Spelled.three least below follows continues
    rw [threeByte, ← code, Char.ofNat_toNat] at spelled
    rwa [encodeChar_of_lt_10000 (by omega) three]
  · obtain ⟨least, below, follows, continues, ends, code⟩ :=
      eq_fourBytes_iff.mp ⟨rfl, Nat.not_lt.mp three, scalar⟩
    have spelled := Spelled.four least below follows continues ends
    rw [fourByte, ← code, Char.ofNat_toNat] at spelled
    rwa [encodeChar_of_le (by omega)]

private theorem spelled_of_front {lead : UInt8} {rest : List UInt8}
    {char : Char}
    {more : Nat} (found : front lead rest = .scalar char more) :
    Spelled char (lead :: rest.take more) := by
  rw [front.eq_def] at found
  simp only [UInt8.lt_iff_toNat_lt, UInt8.reduceToNat] at found
  split at found
  · rename_i small
    cases found
    exact Spelled.one small
  split at found
  · cases found
  split at found
  · rename_i least below
    split at found
    · cases found
    split at found
    · rename_i continues
      cases found
      exact Spelled.two (by omega) below continues
    · cases found
  split at found
  · rename_i least below
    split at found
    · cases found
    split at found
    · rename_i follows
      split at found
      · cases found
      split at found
      · rename_i continues
        cases found
        exact Spelled.three (by omega) below follows continues
      · cases found
    · cases found
  split at found
  · rename_i least below
    split at found
    · cases found
    split at found
    · rename_i follows
      split at found
      · cases found
      split at found
      · rename_i continues
        split at found
        · cases found
        split at found
        · rename_i ends
          cases found
          exact Spelled.four (by omega) below follows continues ends
        · cases found
      · cases found
    · cases found
  · cases found

theorem front_of_spelled {lead : UInt8} {others : List UInt8} {char : Char}
    (spelled : Spelled char (lead :: others)) (later : List UInt8) :
    front lead (others ++ later) = .scalar char others.length := by
  rw [front.eq_def]
  simp only [UInt8.lt_iff_toNat_lt, UInt8.reduceToNat]
  cases spelled with
  | one small => rw [if_pos small, List.length_nil]
  | two least below continues =>
      rw [if_neg (by omega), if_neg (by omega), if_pos below]
      simp only [List.cons_append, continues, if_true, List.length_singleton]
  | three least below follows continues =>
      rw [if_neg (by omega), if_neg (by omega), if_neg (by omega),
        if_pos below]
      simp only [List.cons_append, follows, continues, if_true,
        List.length_cons, List.length_nil]
  | four least below follows continues ends =>
      rw [if_neg (by omega), if_neg (by omega), if_neg (by omega),
        if_neg (by omega), if_pos below]
      simp only [List.cons_append, follows, continues, ends, if_true,
        List.length_cons, List.length_nil]

private theorem written_of_front {lead : UInt8} {rest : List UInt8}
    {char : Char}
    {more : Nat} (found : front lead rest = .scalar char more) :
    lead :: rest = encodeChar char ++ rest.drop more := by
  rw [(spelled_of_front found).encodeChar_eq, List.cons_append,
    List.take_append_drop]

private theorem front_of_written {lead : UInt8} {rest later : List UInt8}
    {char : Char} (written : lead :: rest = encodeChar char ++ later) :
    ∃ more, front lead rest = .scalar char more ∧ rest.drop more = later := by
  have spelled := spelled_encodeChar char
  cases split : encodeChar char with
  | nil =>
      rw [split] at spelled
      cases spelled
  | cons first others =>
      rw [split] at spelled written
      obtain ⟨sameLead, sameRest⟩ := List.cons.inj written
      subst sameLead sameRest
      exact ⟨_, front_of_spelled spelled later, List.drop_left⟩

@[simp] theorem encodeChar_ne_nil (char : Char) : encodeChar char ≠ [] := by
  have spelled := spelled_encodeChar char
  intro nothing
  rw [nothing] at spelled
  cases spelled

@[simp] theorem encode_cons (char : Char) (chars : List Char) :
    encode (char :: chars) = encodeChar char ++ encode chars :=
  List.flatMap_cons

theorem front_of_encode {lead : UInt8} {rest : List UInt8} {chars : List Char}
    (written : lead :: rest = encode chars) :
    ∃ char more others, front lead rest = .scalar char more ∧
      chars = char :: others ∧ rest.drop more = encode others := by
  cases chars with
  | nil => cases written
  | cons char others =>
      rw [encode_cons] at written
      obtain ⟨more, found, behind⟩ := front_of_written written
      exact ⟨char, more, others, found, rfl, behind⟩

theorem encode_eq_nil_iff (chars : List Char) :
    encode chars = [] ↔ chars = [] := by
  cases chars with
  | nil => exact iff_of_true rfl rfl
  | cons char others =>
      rw [encode_cons, List.append_eq_nil_iff]
      have written := encodeChar_ne_nil char
      simp only [written, false_and, List.cons_ne_nil]

theorem decodeFrom_eq_ok_iff (position : Nat) (done : List Char)
    (bytes : List UInt8) (chars : List Char) :
    decodeFrom position done bytes = .ok chars ↔
      ∃ later, chars = done.reverse ++ later ∧ bytes = encode later := by
  -- The induction follows the pieces that strict reading takes off.
  induction position, done, bytes using decodeFrom.induct with
  | case1 position done =>
      rw [decodeFrom]
      constructor
      · intro read
        cases read
        exact ⟨[], (List.append_nil _).symm, rfl⟩
      · intro ⟨later, whole, nothing⟩
        rw [(encode_eq_nil_iff later).mp nothing.symm, List.append_nil] at whole
        rw [whole]
  | case2 position done lead rest char more found ih =>
      rw [decodeFrom, found]
      simp only
      rw [ih]
      constructor
      · intro ⟨later, whole, behind⟩
        refine ⟨char :: later, ?_, ?_⟩
        · rw [whole, List.reverse_cons, List.append_assoc,
            List.singleton_append]
        · rw [encode_cons, ← behind]
          exact written_of_front found
      · intro ⟨later, whole, written⟩
        obtain ⟨other, size, others, here, split, behind⟩ :=
          front_of_encode written
        rw [found] at here
        cases here
        refine ⟨others, ?_, behind⟩
        rw [whole, split, List.reverse_cons, List.append_assoc,
          List.singleton_append]
  | case3 position done lead rest more found =>
      rw [decodeFrom, found]
      constructor
      · intro impossible
        cases impossible
      · intro ⟨later, _, written⟩
        obtain ⟨char, size, others, here, _⟩ := front_of_encode written
        rw [found] at here
        cases here
  | case4 position done lead rest found =>
      rw [decodeFrom, found]
      constructor
      · intro impossible
        cases impossible
      · intro ⟨later, _, written⟩
        obtain ⟨char, size, others, here, _⟩ := front_of_encode written
        rw [found] at here
        cases here

/-- Bytes are read as a text exactly if they are the UTF-8 of that text. -/
theorem decode_eq_ok_iff (bytes : List UInt8) (chars : List Char) :
    decode bytes = .ok chars ↔ bytes = encode chars := by
  rw [decode, decodeFrom_eq_ok_iff]
  constructor
  · intro ⟨later, same, written⟩
    rw [List.reverse_nil, List.nil_append] at same
    rw [same, written]
  · intro written
    exact ⟨chars, rfl, written⟩

private theorem encodeChar_eq_core (char : Char) :
    encodeChar char = String.utf8EncodeChar char := by
  have last : char.toNat < 0x110000 := by
    rcases isScalar_toNat char with below | between
    · omega
    · exact between.2
  simp only [String.utf8EncodeChar, Char.toNat_val]
  by_cases one : char.toNat < 0x80
  · rw [encodeChar_of_lt_80 one, if_pos (by omega)]
  by_cases two : char.toNat < 0x800
  · rw [encodeChar_of_lt_800 (by omega) two, if_neg (by omega),
      if_pos (by omega)]
    rw [eq_comm, cons_eq_twoBytes_iff]
    simp only [UInt8.toNat_ofNat']
    omega
  by_cases three : char.toNat < 0x10000
  · rw [encodeChar_of_lt_10000 (by omega) three, if_neg (by omega),
      if_neg (by omega), if_pos (by omega)]
    rw [eq_comm, cons_eq_threeBytes_iff]
    simp only [UInt8.toNat_ofNat']
    omega
  · rw [encodeChar_of_le (by omega), if_neg (by omega), if_neg (by omega),
      if_neg (by omega)]
    rw [eq_comm, cons_eq_fourBytes_iff]
    simp only [UInt8.toNat_ofNat']
    omega

theorem encode_toList (text : String) :
    encode text.toList = text.toByteArray.data.toList := by
  have each : encodeChar = String.utf8EncodeChar := funext encodeChar_eq_core
  rw [← String.utf8Encode_toList, List.utf8Encode, encode, each]
  simp

theorem Spelled.eq_of_zero_mem {char : Char} {written : List UInt8}
    (spelled : Spelled char written) (member : (0 : UInt8) ∈ written) :
    char = '\x00' := by
  cases spelled with
  | one small =>
      rw [← List.mem_singleton.mp member]
      rfl
  | two least below continues =>
      simp [← UInt8.toNat_inj] at member continues
      omega
  | three least below follows continues =>
      simp [← UInt8.toNat_inj] at member continues follows
      omega
  | four least below follows continues ends =>
      simp [← UInt8.toNat_inj] at member continues follows ends
      omega

theorem zero_notMem_encode {chars : List Char} (noZero : '\x00' ∉ chars) :
    (0 : UInt8) ∉ encode chars := by
  intro member
  obtain ⟨char, inText, inBytes⟩ := List.mem_flatMap.mp member
  rw [(spelled_encodeChar char).eq_of_zero_mem inBytes] at inText
  exact noZero inText

end Utf8
end DexCensus
