/-
What the text of a floating-point number says.

The texts are numerals: digits, perhaps a point with more digits behind it,
and perhaps a power of ten.  A numeral has one value, which is that of the
digits it was written for.  Since no two finite numbers have digits of the same
value, no two bit patterns have the same text, zeros of either sign included.
-/

import DexCensus.Proofs.Decimal.Rounding

namespace DexCensus

attribute [local instance (high)] instPowNat

namespace Decimal

def AllDigits (text : List Char) : Prop :=
  ∀ char ∈ text, char.isDigit = true

/-- What stands behind the digits of a numeral: nothing, or a power of ten with
its sign. -/
inductive PowerText : List Char → Prop
  | absent : PowerText []
  | negative {digits : List Char} :
      AllDigits digits → PowerText ('e' :: '-' :: digits)
  | positive {digits : List Char} :
      AllDigits digits → PowerText ('e' :: '+' :: digits)

def power : List Char → Int
  | 'e' :: '-' :: digits => -(Nat.ofDigitChars 10 digits 0 : Nat)
  | 'e' :: _ :: digits => (Nat.ofDigitChars 10 digits 0 : Nat)
  | _ => 0

/-- A text with a point or a power of ten, and the number it stands for. -/
inductive Numeral : List Char → ℚ → Prop
  | pointed {whole part tail : List Char} :
      whole ≠ [] → AllDigits whole → AllDigits part → PowerText tail →
        Numeral (whole ++ '.' :: (part ++ tail))
          (Nat.ofDigitChars 10 (whole ++ part) 0 *
            10 ^ (power tail - part.length))
  | powered {whole tail : List Char} :
      whole ≠ [] → AllDigits whole → PowerText tail → tail ≠ [] →
        Numeral (whole ++ tail)
          (Nat.ofDigitChars 10 whole 0 * 10 ^ power tail)

def isNumeric (char : Char) : Bool :=
  char.isDigit || char == '.' || char == 'e' || char == 'E' || char == '+' ||
    char == '-'

theorem AllDigits.isNumeric {text : List Char} (digits : AllDigits text) :
    ∀ char ∈ text, isNumeric char = true := by
  intro char member
  simp [Decimal.isNumeric, digits char member]

private theorem AllDigits.append {front back : List Char}
    (first : AllDigits front)
    (second : AllDigits back) : AllDigits (front ++ back) := by
  intro char member
  rcases List.mem_append.mp member with inFront | inBack
  · exact first char inFront
  · exact second char inBack

theorem AllDigits.of_append {front back : List Char}
    (digits : AllDigits (front ++ back)) :
    AllDigits front ∧ AllDigits back :=
  ⟨fun char member => digits char (List.mem_append_left _ member),
    fun char member => digits char (List.mem_append_right _ member)⟩

theorem PowerText.isNumeric {tail : List Char} (known : PowerText tail) :
    ∀ char ∈ tail, isNumeric char = true := by
  cases known with
  | absent => simp
  | negative digits | positive digits =>
      simp only [List.forall_mem_cons]
      exact ⟨rfl, rfl, digits.isNumeric⟩

namespace Numeral

variable {text : List Char} {number : ℚ}

theorem starts_with_digit (numeral : Numeral text number) :
    ∃ char rest, text = char :: rest ∧ char.isDigit = true := by
  have of_whole {whole : List Char} (nonempty : whole ≠ [])
      (digits : AllDigits whole) (rest : List Char) :
      ∃ char others, whole ++ rest = char :: others ∧
        char.isDigit = true := by
    obtain ⟨char, others, rfl⟩ := List.exists_cons_of_ne_nil nonempty
    exact ⟨char, others ++ rest, rfl, digits char List.mem_cons_self⟩
  cases numeral with
  | pointed nonempty digits _ _ => exact of_whole nonempty digits _
  | powered nonempty digits _ _ => exact of_whole nonempty digits _

theorem isNumeric (numeral : Numeral text number) :
    ∀ char ∈ text, isNumeric char = true := by
  cases numeral with
  | pointed _ wholeDigits partDigits tail =>
      simp only [List.forall_mem_append, List.forall_mem_cons]
      exact ⟨wholeDigits.isNumeric, rfl, partDigits.isNumeric,
        tail.isNumeric⟩
  | powered _ wholeDigits tail _ =>
      rw [List.forall_mem_append]
      exact ⟨wholeDigits.isNumeric, tail.isNumeric⟩

end Numeral

def read (text : List Char) : ℚ :=
  match text.dropWhile Char.isDigit with
  | '.' :: rest =>
      Nat.ofDigitChars 10 (text.takeWhile Char.isDigit ++
          rest.takeWhile Char.isDigit) 0 *
        10 ^ (power (rest.dropWhile Char.isDigit) -
          (rest.takeWhile Char.isDigit).length)
  | tail =>
      Nat.ofDigitChars 10 (text.takeWhile Char.isDigit) 0 * 10 ^ power tail

theorem span_of_all {kind : Char → Bool} {front rest : List Char}
    (all : ∀ char ∈ front, kind char = true)
    (stops : ∀ char ∈ rest.head?, kind char = false) :
    (front ++ rest).takeWhile kind = front ∧
      (front ++ rest).dropWhile kind = rest := by
  rw [List.takeWhile_append_of_pos all, List.dropWhile_append_of_pos all]
  cases rest with
  | nil => simp
  | cons char others =>
      have stop := stops char rfl
      simp [stop]

private theorem PowerText.stops {tail : List Char} (known : PowerText tail) :
    ∀ char ∈ tail.head?, char.isDigit = false := by
  cases known with
  | absent => simp
  | negative | positive =>
      intro char member
      cases member
      rfl

private theorem Numeral.read_eq {text : List Char} {number : ℚ}
    (numeral : Numeral text number) : read text = number := by
  cases numeral with
  | @pointed whole part tail _ wholeDigits partDigits known =>
      have atPoint : ∀ char ∈ ('.' :: (part ++ tail)).head?,
          char.isDigit = false := by
        simp
      obtain ⟨wholeTaken, wholeDropped⟩ := span_of_all wholeDigits atPoint
      obtain ⟨partTaken, partDropped⟩ := span_of_all partDigits known.stops
      unfold read
      rw [wholeTaken, wholeDropped]
      simp only [partTaken, partDropped]
  | @powered whole tail _ wholeDigits known nonempty =>
      obtain ⟨taken, dropped⟩ := span_of_all wholeDigits known.stops
      unfold read
      rw [taken, dropped]
      cases known with
      | absent => exact (nonempty rfl).elim
      | negative | positive => rfl

private theorem Numeral.unique {text : List Char} {first second : ℚ}
    (one : Numeral text first) (other : Numeral text second) :
    first = second := by
  rw [← one.read_eq, other.read_eq]

/-! ### The texts of numbers are numerals -/

theorem allDigits_toDigits (number : Nat) :
    AllDigits (Nat.toDigits 10 number) := by
  intro char member
  exact Nat.isDigit_of_mem_toDigits (by decide) (by decide) member

private theorem allDigits_zeros (count : Nat) :
    AllDigits (List.replicate count '0') := by
  intro char member
  rw [List.eq_of_mem_replicate member]
  rfl

private theorem ofDigitChars_zeros_append (count : Nat) (digits : List Char) :
    Nat.ofDigitChars 10 (List.replicate count '0' ++ digits) 0 =
      Nat.ofDigitChars 10 digits 0 := by
  rw [Nat.ofDigitChars_append, Nat.ofDigitChars_replicate_zero, Nat.mul_zero]

private theorem ofDigitChars_append_zeros (digits : List Char) (count : Nat) :
    Nat.ofDigitChars 10 (digits ++ List.replicate count '0') 0 =
      10 ^ count * Nat.ofDigitChars 10 digits 0 := by
  rw [Nat.ofDigitChars_append, Nat.ofDigitChars_replicate_zero]

/-- A numeral with a point and without a power, of digits that are a number
moved by as many places as there are behind the point. -/
theorem Numeral.of_point {whole part : List Char} {digits : Nat}
    {exponent : Int} (moved : Nat) (nonempty : whole ≠ [])
    (wholeDigits : AllDigits whole) (partDigits : AllDigits part)
    (places : (moved : Int) = exponent + part.length)
    (value : Nat.ofDigitChars 10 (whole ++ part) 0 = 10 ^ moved * digits) :
    Numeral (whole ++ '.' :: part) (digits * 10 ^ exponent) := by
  have numeral :=
    Numeral.pointed nonempty wholeDigits partDigits PowerText.absent
  have same : (Nat.ofDigitChars 10 (whole ++ part) 0 : ℚ) *
      10 ^ (power [] - part.length) = digits * 10 ^ exponent := by
    have noPower : power [] = 0 := rfl
    have exponents : exponent = moved + (power [] - part.length) := by
      rw [places, noPower]
      omega
    rw [value, exponents, zpow_add₀ (by norm_num), zpow_natCast]
    push_cast
    ring
  rw [List.append_nil, same] at numeral
  exact numeral

private theorem numeral_positional {digits : List Char} {number : Nat}
    (nonempty : digits ≠ []) (allDigits : AllDigits digits)
    (value : Nat.ofDigitChars 10 digits 0 = number) (exponent : Int) :
    Numeral (positional digits exponent).toList
      (number * 10 ^ exponent) := by
  unfold positional
  dsimp only
  split
  · rename_i notNegative
    have text : (String.ofList digits ++ zeros exponent.toNat ++ ".0").toList =
        (digits ++ List.replicate exponent.toNat '0') ++ '.' :: ['0'] := by
      simp [zeros, String.toList_append]
    rw [text]
    refine Numeral.of_point (exponent.toNat + 1) (by simp [nonempty])
      (allDigits.append (allDigits_zeros _)) (allDigits_zeros 1) ?_ ?_
    · simp
      omega
    · have zeros : digits ++ List.replicate exponent.toNat '0' ++ ['0'] =
          digits ++ List.replicate (exponent.toNat + 1) '0' := by
        rw [List.replicate_succ', List.append_assoc]
      rw [zeros, ofDigitChars_append_zeros, value]
  · rename_i negative
    split
    · rename_i within
      generalize cut : digits.length - (-exponent).toNat = front
      have text : (String.ofList (digits.take front) ++ "." ++
            String.ofList (digits.drop front)).toList =
          digits.take front ++ '.' :: digits.drop front := by
        simp [String.toList_append]
      rw [text]
      obtain ⟨wholeDigits, partDigits⟩ := AllDigits.of_append
        ((List.take_append_drop front digits).symm ▸ allDigits)
      refine Numeral.of_point 0 ?_ wholeDigits partDigits ?_ ?_
      · rw [← List.length_pos_iff, List.length_take]
        omega
      · rw [List.length_drop]
        omega
      · rw [List.take_append_drop, value, Nat.pow_zero, Nat.one_mul]
    · rename_i beyond
      generalize gap : (-exponent).toNat - digits.length = count
      have text : ("0." ++ zeros count ++ String.ofList digits).toList =
          ['0'] ++ '.' :: (List.replicate count '0' ++ digits) := by
        simp [zeros, String.toList_append]
      rw [text]
      refine Numeral.of_point 0 (by simp) (allDigits_zeros 1)
        ((allDigits_zeros count).append allDigits) ?_ ?_
      · rw [List.length_append, List.length_replicate]
        omega
      · have zeros : ['0'] ++ (List.replicate count '0' ++ digits) =
            List.replicate (count + 1) '0' ++ digits := rfl
        rw [zeros, ofDigitChars_zeros_append, value, Nat.pow_zero,
          Nat.one_mul]

private theorem powerText_signed (exponent : Int) :
    ∃ tail, ("e" ++ (if exponent < 0 then "-" else "+") ++
        toString exponent.natAbs).toList = tail ∧
      PowerText tail ∧ tail ≠ [] ∧ power tail = exponent := by
  have digits := allDigits_toDigits exponent.natAbs
  have value := Nat.ofDigitChars_ten_toDigits (n := exponent.natAbs)
  split
  · refine ⟨'e' :: '-' :: Nat.toDigits 10 exponent.natAbs, ?_,
      .negative digits, by simp, ?_⟩
    · simp [String.toList_append]
    · rw [power, value]
      omega
  · refine ⟨'e' :: '+' :: Nat.toDigits 10 exponent.natAbs, ?_,
      .positive digits, by simp, ?_⟩
    · simp [String.toList_append]
    · rw [power, value]
      · omega
      · decide

private theorem numeral_scientific {digits : List Char} {number : Nat}
    (nonempty : digits ≠ []) (allDigits : AllDigits digits)
    (value : Nat.ofDigitChars 10 digits 0 = number) (exponent : Int) :
    Numeral (scientific digits
        (exponent + (digits.length - 1 : Nat))).toList
      (number * 10 ^ exponent) := by
  obtain ⟨tail, written, known, behind, powerIs⟩ :=
    powerText_signed (exponent + (digits.length - 1 : Nat))
  have text (mantissa : List Char) :
      (String.ofList mantissa ++ "e" ++
        (if exponent + (digits.length - 1 : Nat) < 0 then "-" else "+") ++
        toString (exponent + (digits.length - 1 : Nat)).natAbs).toList =
          mantissa ++ tail := by
    rw [← written]
    simp [String.toList_append]
  unfold scientific
  match digits with
  | [] => exact (nonempty rfl).elim
  | [single] =>
      dsimp only
      rw [text]
      have numeral := Numeral.powered nonempty allDigits known behind
      rw [value, powerIs] at numeral
      simpa using numeral
  | first :: second :: rest =>
      dsimp only
      rw [text]
      have split : AllDigits ([first] ++ second :: rest) := allDigits
      obtain ⟨wholeDigits, partDigits⟩ := split.of_append
      have numeral := Numeral.pointed (by simp) wholeDigits partDigits known
      have places : exponent + ((first :: second :: rest).length - 1 : Nat) -
          (second :: rest).length = exponent := by
        simp
      simp only [List.singleton_append, value, powerIs, places] at numeral
      simpa using numeral

private theorem numeral_text (number : Digits) (style : Style) :
    Numeral (number.text style).toList number.value := by
  have nonempty : Nat.toDigits 10 number.digits ≠ [] := Nat.toDigits_ne_nil
  have digits := allDigits_toDigits number.digits
  have value := Nat.ofDigitChars_ten_toDigits (n := number.digits)
  unfold Digits.text Digits.value
  dsimp only
  split
  · exact numeral_positional nonempty digits value number.exponent
  · exact numeral_scientific nonempty digits value number.exponent

def BinaryFormat.IsFinite (format : BinaryFormat) (bits : Nat) : Prop :=
  format.storedExponent bits ≠ 2 ^ format.exponentBits - 1

instance (format : BinaryFormat) (bits : Nat) :
    Decidable (format.IsFinite bits) :=
  inferInstanceAs (Decidable (_ ≠ _))

section Texts

variable {format : BinaryFormat} {style : Style} {bits : Nat}

theorem text?_eq_none_iff :
    text? format style bits = none ↔ ¬ format.IsFinite bits := by
  unfold text? BinaryFormat.magnitude? BinaryFormat.IsFinite
  rw [Option.map_eq_none_iff]
  dsimp only
  split
  · rename_i special
    simp [special]
  · rename_i finite
    split <;> simp [finite]

theorem exists_numeral {text : String}
    (written : text? format style bits = some text) :
    ∃ magnitude chars, format.magnitude? bits = some magnitude ∧
      Numeral chars (shortest magnitude).value ∧
      text.toList = (if format.isNegative bits then ['-'] else []) ++ chars := by
  obtain ⟨magnitude, finite, rfl⟩ := Option.map_eq_some_iff.mp written
  refine ⟨magnitude, _, finite, numeral_text (shortest magnitude) style, ?_⟩
  rw [String.toList_append]
  split <;> rfl

theorem isNumeric_of_text? {text : String}
    (written : text? format style bits = some text) :
    ∀ char ∈ text.toList, isNumeric char = true := by
  obtain ⟨_, chars, _, numeral, spelled⟩ := exists_numeral written
  rw [spelled, List.forall_mem_append]
  refine ⟨?_, numeral.isNumeric⟩
  split
  · simp [isNumeric]
  · simp

theorem nonempty_of_text? {text : String}
    (written : text? format style bits = some text) : text ≠ "" := by
  obtain ⟨_, chars, _, numeral, spelled⟩ := exists_numeral written
  obtain ⟨first, rest, rfl, _⟩ := numeral.starts_with_digit
  rintro rfl
  simp at spelled

private theorem eq_of_sign_of_unsigned {other : Nat}
    (small : bits < 2 ^ (format.fractionBits + format.exponentBits + 1))
    (otherSmall : other < 2 ^ (format.fractionBits + format.exponentBits + 1))
    (sign : format.isNegative bits = format.isNegative other)
    (rest : format.unsigned bits = format.unsigned other) :
    bits = other := by
  unfold BinaryFormat.isNegative at sign
  unfold BinaryFormat.unsigned at rest
  rw [Nat.pow_succ] at small otherSmall
  generalize 2 ^ (format.fractionBits + format.exponentBits) = unit at *
  have first := Nat.div_lt_of_lt_mul small
  have second := Nat.div_lt_of_lt_mul otherSmall
  have split := Nat.div_add_mod bits unit
  have otherSplit := Nat.div_add_mod other unit
  have quotient : bits / unit = other / unit := by
    simp only [decide_eq_decide] at sign
    generalize bits / unit = signBit at *
    generalize other / unit = otherSignBit at *
    omega
  rw [← split, ← otherSplit, quotient, rest]

/-- No two bit patterns of finite numbers have the same text. -/
theorem text?_unique (moderate : format.Moderate) {other : Nat}
    {text : String}
    (small : bits < 2 ^ (format.fractionBits + format.exponentBits + 1))
    (otherSmall : other < 2 ^ (format.fractionBits + format.exponentBits + 1))
    (written : text? format style bits = some text)
    (otherWritten : text? format style other = some text) :
    bits = other := by
  obtain ⟨magnitude, chars, finite, numeral, spelled⟩ :=
    exists_numeral written
  obtain ⟨otherMagnitude, otherChars, otherFinite, otherNumeral,
    otherSpelled⟩ := exists_numeral otherWritten
  rw [spelled] at otherSpelled
  obtain ⟨first, rest, rfl, isDigit⟩ := numeral.starts_with_digit
  obtain ⟨otherFirst, otherRest, rfl, otherIsDigit⟩ :=
    otherNumeral.starts_with_digit
  -- A digit is not a sign, so the signs agree and the numerals do.
  have agree : format.isNegative bits = format.isNegative other ∧
      first :: rest = otherFirst :: otherRest := by
    cases sign : format.isNegative bits <;>
      cases otherSign : format.isNegative other <;>
      simp only [sign, otherSign, if_true, List.nil_append,
        List.cons_append, Bool.false_eq_true, if_false] at otherSpelled
    · exact ⟨rfl, otherSpelled⟩
    · rw [(List.cons.inj otherSpelled).1] at isDigit
      cases isDigit
    · rw [← (List.cons.inj otherSpelled).1] at otherIsDigit
      cases otherIsDigit
    · exact ⟨rfl, (List.cons.inj otherSpelled).2⟩
  rw [← agree.2] at otherNumeral
  exact eq_of_sign_of_unsigned small otherSmall agree.1
    (BinaryFormat.unsigned_eq_of_value_eq moderate finite otherFinite
      (numeral.unique otherNumeral))

end Texts

end Decimal
end DexCensus
