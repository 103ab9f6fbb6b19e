/-
Encoded values are read exactly.

Reading at a position succeeds with a value and ends at a position exactly if
the bytes between the two write that value by the grammar of encoded values.
The proof goes from the end of the buffer to its front: a value reads only
what stands behind its header byte, so its reader is exact at a position once
it is exact at all later ones.
-/

import DexCensus.Dex.EncodedValue.Depth
import DexCensus.Proofs.EncodedValue.Grammar

namespace DexCensus

-- Powers of numbers are those of the core library, whatever else is imported.
attribute [local instance (high)] instPowNat

namespace Reader

open Dex Grammar

variable {bytes : Bytes} {start : Nat}

theorem header_type_toNat (header : UInt8) :
    (header &&& 0x1f).toNat = header.toNat % 32 := by
  rw [UInt8.toNat_and]
  exact Nat.and_two_pow_sub_one_eq_mod header.toNat 5

private theorem header_argument_toNat (header : UInt8) :
    (header >>> 5).toNat = header.toNat / 32 := by
  rw [UInt8.toNat_shiftRight]
  exact Nat.shiftRight_eq_div_pow header.toNat 5

theorem exact_narrow (size width : Nat) :
    Exact bytes start (narrow size width)
      (fun found written => found = written ∧ written.length = size ∧
        1 ≤ size ∧ size ≤ width) := by
  unfold narrow
  by_cases bad : size = 0 ∨ width < size
  · rw [if_pos bad]
    refine (exact_stop _).congr ?_
    intro found written
    constructor
    · intro impossible
      exact impossible.elim
    · intro ⟨_, _, positive, within⟩
      omega
  · rw [if_neg bad]
    refine (exact_take (by omega)).congr ?_
    intro found written
    constructor
    · intro ⟨same, counted⟩
      exact ⟨same, counted, by omega, by omega⟩
    · intro ⟨same, counted, _, _⟩
      exact ⟨same, counted⟩

theorem exact_narrow_map {α : Type} (size width : Nat)
    (value : List UInt8 → α) :
    Exact bytes start
      (Reader.andThen (narrow size width) fun found => succeed (value found))
      (fun found written => written.length = size ∧ 1 ≤ size ∧ size ≤ width ∧
        value written = found) := by
  refine ((exact_narrow size width).andThen fun found =>
    exact_succeed (value found)).congr ?_
  intro found written
  constructor
  · intro ⟨read, front, back, split, ⟨sameFront, counted, positive, within⟩, same,
      nothing⟩
    subst nothing sameFront
    rw [List.append_nil] at split
    subst split
    exact ⟨counted, positive, within, same.symm⟩
  · intro ⟨counted, positive, within, same⟩
    exact ⟨written, written, [], (List.append_nil written).symm,
      ⟨rfl, counted, positive, within⟩, same.symm, rfl⟩

theorem exact_signed (size width : Nat) :
    Exact bytes start (signed size width)
      (fun found written => written.length = size ∧
        Signed width found written) := by
  refine (exact_narrow_map size width signedNumber).congr ?_
  intro found written
  constructor
  · intro ⟨counted, positive, within, same⟩
    subst counted
    exact ⟨rfl, positive, within, (signedNumber_eq_iff positive found).mp same⟩
  · intro ⟨counted, positive, within, meant⟩
    subst counted
    exact ⟨rfl, positive, within, (signedNumber_eq_iff positive found).mpr meant⟩

theorem exact_unsigned (size width : Nat) :
    Exact bytes start (unsigned size width)
      (fun found written => written.length = size ∧
        Unsigned width found written) := by
  refine (exact_narrow_map size width LittleEndian.number).congr ?_
  intro found written
  constructor
  · intro ⟨counted, positive, within, same⟩
    subst counted
    exact ⟨rfl, positive, within, same.symm⟩
  · intro ⟨counted, positive, within, meant⟩
    subst counted
    exact ⟨rfl, positive, within, meant.symm⟩

theorem exact_pattern (size width : Nat) :
    Exact bytes start (pattern size width)
      (fun found written => written.length = size ∧ found < 256 ^ width ∧
        HighOrder width found written) := by
  refine (exact_narrow_map size width (leftAligned width)).congr ?_
  intro found written
  constructor
  · intro ⟨counted, positive, within, same⟩
    subst counted same
    have fits := leftAligned_lt within
    exact ⟨rfl, fits, positive, within, (leftAligned_eq_iff within fits).mp rfl⟩
  · intro ⟨counted, fits, positive, within, meant⟩
    subst counted
    exact ⟨rfl, positive, within, (leftAligned_eq_iff within fits).mpr meant⟩

theorem exact_index (size : Nat) :
    Exact bytes start (index size)
      (fun found written => written.length = size ∧
        Unsigned 4 found.toNat written) := by
  refine ((exact_unsigned size 4).convert id UInt32.ofNat UInt32.toNat
    (fun _ => UInt32.ofNat_toNat) ?_).congr ?_
  · intro value written ⟨_, meant⟩
    exact UInt32.toNat_ofNat_of_lt' meant.lt_pow
  · intro found written
    constructor
    · intro ⟨value, same, meant⟩
      rw [same]
      exact meant
    · intro meant
      exact ⟨found, rfl, meant⟩

/-! ### What follows a header byte -/

def behindHeader (header : UInt8) : Grammar EncodedValue :=
  fun found written => Encodes found (header :: written)

/-- A value of a type whose content is a number of reduced width.  `wrap` makes
such a value from a fixed-width number, and `back` and `convert` go from there
to the number that is read and back again. -/
theorem exact_sized {α β : Type} {reader : Reader α} {number : Grammar α}
    {header : UInt8} {code : Nat} (isCode : header.toNat % 32 = code)
    (exact : Exact bytes start reader (fun found written =>
      written.length = header.toNat / 32 + 1 ∧ number found written))
    (wrap : β → EncodedValue) (convert : α → β) (back : β → α)
    (convertBack : ∀ value, convert (back value) = value)
    (backConvert : ∀ found written, number found written →
      back (convert found) = found)
    (content : ∀ value written,
      SizedContent (wrap value) written ↔ number (back value) written)
    (wrapCode : ∀ value, (wrap value).typeCode = code)
    (onlyWrap : ∀ found, found.typeCode = code → ∃ value, found = wrap value)
    (notNested : code < 0x1c) :
    Exact bytes start
      (Reader.andThen reader fun found => succeed (wrap (convert found)))
      (behindHeader header) := by
  refine (exact.convert wrap convert back convertBack
    fun found written meant => backConvert found written meant.2).congr ?_
  intro found written
  constructor
  · intro ⟨value, same, counted, meant⟩
    subst same
    refine Encodes.sized ?_ counted.symm ((content value written).mpr meant)
    rw [isCode, wrapCode]
  · intro encoded
    cases encoded with
    | sized ofType counted meant =>
        obtain ⟨value, same⟩ := onlyWrap found (ofType.symm.trans isCode)
        subst same
        exact ⟨value, rfl, counted.symm, (content value written).mp meant⟩
    | array ofType _ _ _ => omega
    | nested ofType _ _ _ _ => omega
    | null ofType => omega
    | bool ofType _ => omega

theorem exact_indexed {header : UInt8} {code : Nat}
    (isCode : header.toNat % 32 = code) (wrap : UInt32 → EncodedValue)
    (content : ∀ value written, SizedContent (wrap value) written ↔
      Unsigned 4 value.toNat written)
    (wrapCode : ∀ value, (wrap value).typeCode = code)
    (onlyWrap : ∀ found, found.typeCode = code → ∃ value, found = wrap value)
    (notNested : code < 0x1c) :
    Exact bytes start
      (Reader.andThen (index (header.toNat / 32 + 1)) fun found =>
        succeed (wrap found))
      (behindHeader header) :=
  exact_sized isCode (exact_index _) wrap id id (fun _ => rfl)
    (fun _ _ _ => rfl) content wrapCode onlyWrap notNested

theorem exact_arrayOf {value : Reader EncodedValue}
    (inner : Exact bytes start value Encodes) {header : UInt8}
    (isCode : header.toNat % 32 = 0x1c) :
    Exact bytes start
      (Reader.andThen (arrayOf value) fun values => succeed (.array values))
      (behindHeader header) := by
  refine ((exact_count.andThen fun size => inner.replicate size).andThen
    fun values => exact_succeed (EncodedValue.array values)).congr ?_
  intro found written
  constructor
  · intro ⟨values, front, nothing, split, ⟨size, sizeBytes, content, splitAgain,
      ⟨count, isCount, counted⟩, enough, each⟩, same, isNothing⟩
    subst isNothing same isCount splitAgain
    rw [List.append_nil] at split
    subst split
    exact Encodes.array isCode counted enough.symm each
  · intro encoded
    cases encoded with
    | sized ofType _ meant =>
        have small := meant.typeCode_lt
        omega
    | @array values _ count size content ofType counted enough each =>
        exact ⟨values, size ++ content, [], (List.append_nil _).symm,
          ⟨count.toNat, size, content, rfl, ⟨count, rfl, counted⟩,
            enough.symm, each⟩, rfl, rfl⟩
    | nested ofType _ _ _ _ => omega
    | null ofType => omega
    | bool ofType _ => omega

theorem exact_elementOf {value : Reader EncodedValue}
    (inner : Exact bytes start value Encodes) :
    Exact bytes start (elementOf value) (NamedValue Encodes) := by
  refine (exact_uleb128.andThen fun name => inner.andThen fun named =>
    exact_succeed (name, named)).congr ?_
  intro found written
  constructor
  · intro ⟨name, front, middle, split, isName, named, back, nothing, splitAgain,
      encoded, same, isNothing⟩
    subst isNothing same splitAgain split
    rw [List.append_nil]
    exact NamedValue.mk isName encoded
  · intro encoded
    cases encoded with
    | @mk name named front back isName meant =>
        exact ⟨name, front, back, rfl, isName, named, back, [],
          (List.append_nil back).symm, meant, rfl, rfl⟩

theorem exact_payloadOf {value : Reader EncodedValue}
    (inner : Exact bytes start value Encodes) :
    Exact bytes start (payloadOf value) (fun found written =>
      ∃ front size content, written = front ++ (size ++ content) ∧
        Uleb128.Written found.type front ∧
        (∃ count, Uleb128.Written count size ∧
          count.toNat = found.elements.length) ∧
        Sequence (NamedValue Encodes) found.elements content) := by
  refine (exact_uleb128.andThen fun type => exact_count.andThen fun size =>
    ((exact_elementOf inner).replicate size).andThen fun elements =>
      exact_succeed (Payload.mk type elements)).congr ?_
  intro found written
  constructor
  · intro ⟨type, front, rest, split, isType, size, sizeBytes, content,
      splitContent, ⟨count, isCount, counted⟩, elements, back, nothing,
      splitBack, ⟨enough, each⟩, same, isNothing⟩
    subst isNothing same isCount splitBack splitContent split
    rw [List.append_nil]
    exact ⟨front, sizeBytes, back, rfl, isType, ⟨count, counted, enough.symm⟩,
      each⟩
  · intro ⟨front, size, content, split, isType, ⟨count, counted, enough⟩, each⟩
    subst split
    exact ⟨found.type, front, size ++ content, rfl, isType, count.toNat, size,
      content, rfl, ⟨count, rfl, counted⟩, found.elements, content, [],
      (List.append_nil content).symm, ⟨enough.symm, each⟩, rfl, rfl⟩

theorem exact_nested {value : Reader EncodedValue}
    (inner : Exact bytes start value Encodes) {header : UInt8}
    (isCode : header.toNat % 32 = 0x1d) :
    Exact bytes start
      (Reader.andThen (payloadOf value) fun payload =>
        succeed (.nested payload.type payload.elements))
      (behindHeader header) := by
  refine ((exact_payloadOf inner).andThen fun payload => exact_succeed
    (EncodedValue.nested payload.type payload.elements)).congr ?_
  intro found written
  constructor
  · intro ⟨payload, whole, nothing, split, ⟨front, size, content, splitWhole,
      isType, ⟨count, counted, enough⟩, each⟩, same, isNothing⟩
    subst isNothing same splitWhole
    rw [List.append_nil] at split
    subst split
    exact Encodes.nested isCode isType counted enough each
  · intro encoded
    cases encoded with
    | sized ofType _ meant =>
        have small := meant.typeCode_lt
        omega
    | array ofType _ _ _ => omega
    | @nested type elements _ count front size content ofType isType counted
        enough each =>
        exact ⟨{ type := type, elements := elements },
          front ++ (size ++ content), [], (List.append_nil _).symm,
          ⟨front, size, content, rfl, isType, ⟨count, counted, enough⟩, each⟩,
          rfl, rfl⟩
    | null ofType => omega
    | bool ofType _ => omega

theorem exact_null {header : UInt8} (isCode : header.toNat % 32 = 0x1e) :
    Exact bytes start (succeed .null) (behindHeader header) := by
  refine (exact_succeed EncodedValue.null).congr ?_
  intro found written
  constructor
  · intro ⟨same, nothing⟩
    subst same nothing
    exact Encodes.null isCode
  · intro encoded
    cases encoded with
    | sized ofType _ meant =>
        have small := meant.typeCode_lt
        omega
    | array ofType _ _ _ => omega
    | nested ofType _ _ _ _ => omega
    | null _ => exact ⟨rfl, rfl⟩
    | bool ofType _ => omega

theorem exact_bool {header argument : UInt8}
    (isCode : header.toNat % 32 = 0x1f)
    (isArgument : argument.toNat = header.toNat / 32) :
    Exact bytes start (succeed (.bool (argument ≠ 0))) (behindHeader header) := by
  have truth : argument ≠ 0 ↔ header.toNat / 32 ≠ 0 := by
    rw [← isArgument]
    exact not_congr UInt8.toNat_inj.symm
  refine (exact_succeed (EncodedValue.bool (argument ≠ 0))).congr ?_
  intro found written
  constructor
  · intro ⟨same, nothing⟩
    subst same nothing
    exact Encodes.bool isCode (by rw [decide_eq_true_iff]; exact truth)
  · intro encoded
    cases encoded with
    | sized ofType _ meant =>
        have small := meant.typeCode_lt
        omega
    | array ofType _ _ _ => omega
    | nested ofType _ _ _ _ => omega
    | null ofType => omega
    | @bool value _ _ meant =>
        refine ⟨?_, rfl⟩
        congr 1
        rw [Bool.eq_iff_iff, meant, decide_eq_true_iff]
        exact truth.symm

theorem exact_valueBody {value : Reader EncodedValue}
    (inner : Exact bytes start value Encodes) (origin : Nat) (header : UInt8) :
    Exact bytes start
      (valueBody value origin (header &&& 0x1f) (header >>> 5))
      (behindHeader header) := by
  unfold valueBody
  simp only [header_type_toNat, header_argument_toNat]
  split
  case h_1 isCode =>
    exact exact_sized isCode (exact_signed _ 1) .byte Int8.ofInt Int8.toInt
      (fun _ => Int8.ofInt_toInt _) (fun _ _ meant =>
        Int8.toInt_ofInt_of_le meant.bounds.1 meant.bounds.2)
      (fun _ _ => Iff.rfl) (fun _ => rfl)
      (fun found code => by cases found <;> cases code; exact ⟨_, rfl⟩)
      (by decide)
  case h_2 isCode =>
    exact exact_sized isCode (exact_signed _ 2) .short Int16.ofInt Int16.toInt
      (fun _ => Int16.ofInt_toInt _) (fun _ _ meant =>
        Int16.toInt_ofInt_of_le meant.bounds.1 meant.bounds.2)
      (fun _ _ => Iff.rfl) (fun _ => rfl)
      (fun found code => by cases found <;> cases code; exact ⟨_, rfl⟩)
      (by decide)
  case h_3 isCode =>
    exact exact_sized isCode (exact_unsigned _ 2) .char UInt16.ofNat UInt16.toNat
      (fun _ => UInt16.ofNat_toNat) (fun _ _ meant =>
        UInt16.toNat_ofNat_of_lt' meant.lt_pow)
      (fun _ _ => Iff.rfl) (fun _ => rfl)
      (fun found code => by cases found <;> cases code; exact ⟨_, rfl⟩)
      (by decide)
  case h_4 isCode =>
    exact exact_sized isCode (exact_signed _ 4) .int Int32.ofInt Int32.toInt
      (fun _ => Int32.ofInt_toInt _) (fun _ _ meant =>
        Int32.toInt_ofInt_of_le meant.bounds.1 meant.bounds.2)
      (fun _ _ => Iff.rfl) (fun _ => rfl)
      (fun found code => by cases found <;> cases code; exact ⟨_, rfl⟩)
      (by decide)
  case h_5 isCode =>
    exact exact_sized isCode (exact_signed _ 8) .long Int64.ofInt Int64.toInt
      (fun _ => Int64.ofInt_toInt _) (fun _ _ meant =>
        Int64.toInt_ofInt_of_le meant.bounds.1 meant.bounds.2)
      (fun _ _ => Iff.rfl) (fun _ => rfl)
      (fun found code => by cases found <;> cases code; exact ⟨_, rfl⟩)
      (by decide)
  case h_6 isCode =>
    exact exact_sized isCode (exact_pattern _ 4) .float UInt32.ofNat UInt32.toNat
      (fun _ => UInt32.ofNat_toNat) (fun _ _ meant =>
        UInt32.toNat_ofNat_of_lt' meant.1)
      (fun bits _ => (and_iff_right bits.toNat_lt).symm) (fun _ => rfl)
      (fun found code => by cases found <;> cases code; exact ⟨_, rfl⟩)
      (by decide)
  case h_7 isCode =>
    exact exact_sized isCode (exact_pattern _ 8) .double UInt64.ofNat UInt64.toNat
      (fun _ => UInt64.ofNat_toNat) (fun _ _ meant =>
        UInt64.toNat_ofNat_of_lt' meant.1)
      (fun bits _ => (and_iff_right bits.toNat_lt).symm) (fun _ => rfl)
      (fun found code => by cases found <;> cases code; exact ⟨_, rfl⟩)
      (by decide)
  case h_8 isCode =>
    exact exact_indexed isCode .methodType (fun _ _ => Iff.rfl) (fun _ => rfl)
      (fun found code => by cases found <;> cases code; exact ⟨_, rfl⟩)
      (by decide)
  case h_9 isCode =>
    exact exact_indexed isCode .methodHandle (fun _ _ => Iff.rfl) (fun _ => rfl)
      (fun found code => by cases found <;> cases code; exact ⟨_, rfl⟩)
      (by decide)
  case h_10 isCode =>
    exact exact_indexed isCode .string (fun _ _ => Iff.rfl) (fun _ => rfl)
      (fun found code => by cases found <;> cases code; exact ⟨_, rfl⟩)
      (by decide)
  case h_11 isCode =>
    exact exact_indexed isCode .type (fun _ _ => Iff.rfl) (fun _ => rfl)
      (fun found code => by cases found <;> cases code; exact ⟨_, rfl⟩)
      (by decide)
  case h_12 isCode =>
    exact exact_indexed isCode .field (fun _ _ => Iff.rfl) (fun _ => rfl)
      (fun found code => by cases found <;> cases code; exact ⟨_, rfl⟩)
      (by decide)
  case h_13 isCode =>
    exact exact_indexed isCode .method (fun _ _ => Iff.rfl) (fun _ => rfl)
      (fun found code => by cases found <;> cases code; exact ⟨_, rfl⟩)
      (by decide)
  case h_14 isCode =>
    exact exact_indexed isCode .enum (fun _ _ => Iff.rfl) (fun _ => rfl)
      (fun found code => by cases found <;> cases code; exact ⟨_, rfl⟩)
      (by decide)
  case h_15 isCode => exact exact_arrayOf inner isCode
  case h_16 isCode => exact exact_nested inner isCode
  case h_17 isCode => exact exact_null isCode
  case h_18 isCode =>
    exact exact_bool isCode (header_argument_toNat header)
  case h_19 =>
    refine (exact_stop _).congr ?_
    intro found written
    constructor
    · intro impossible
      exact impossible.elim
    · intro encoded
      cases encoded with
      | sized ofType _ meant => cases found <;> simp_all [EncodedValue.typeCode]
      | _ => simp_all

/-- A value is read exactly at a position if values are read exactly at all
later ones. -/
theorem valueStep_eq_ok_iff {value : Reader EncodedValue}
    (inner : start < bytes.size → Exact bytes (start + 1) value Encodes)
    (found : EncodedValue) (next : Nat) :
    valueStep value bytes start = .ok (found, next) ↔
      ∃ written, written <+: bytes.toList.drop start ∧
        next = start + written.length ∧ Encodes found written := by
  show andThen u1 (fun header =>
    valueBody value start (header &&& 0x1f) (header >>> 5)) bytes start = _ ↔ _
  rw [andThen_eq_ok_iff]
  constructor
  · intro ⟨header, middle, headerRead, bodyRead⟩
    obtain ⟨front, frontStands, toMiddle, isHeader⟩ :=
      (exact_u1 start (Nat.le_refl start) header middle).mp headerRead
    subst isHeader toMiddle
    have inside := prefix_drop_inside frontStands (by simp)
    obtain ⟨back, backStands, toNext, encoded⟩ :=
      (exact_valueBody (inner inside) start header (start + 1) (Nat.le_refl _)
        found next).mp bodyRead
    refine ⟨header :: back, ?_, ?_, encoded⟩
    · exact (append_prefix_drop_iff [header] back _ start).mpr
        ⟨frontStands, backStands⟩
    · rw [toNext, List.length_cons]
      omega
  · intro ⟨written, stands, toNext, encoded⟩
    obtain ⟨header, back, split⟩ : ∃ header back, written = header :: back := by
      cases encoded <;> exact ⟨_, _, rfl⟩
    subst split
    obtain ⟨frontStands, backStands⟩ :=
      (append_prefix_drop_iff [header] back _ start).mp stands
    have inside := prefix_drop_inside frontStands (by simp)
    refine ⟨header, start + 1, ?_, ?_⟩
    · exact (exact_u1 start (Nat.le_refl start) header _).mpr
        ⟨[header], frontStands, rfl, rfl⟩
    · refine (exact_valueBody (inner inside) start header (start + 1)
        (Nat.le_refl _) found next).mpr ⟨back, backStands, ?_, encoded⟩
      rw [toNext, List.length_cons]
      omega

/-- Values are read exactly from every position on.  The induction is on the
bytes left behind the position. -/
theorem exact_encodedValue (bytes : Bytes) (start : Nat) :
    Exact bytes start encodedValue Encodes := by
  have atEvery : ∀ left position, bytes.size - position < left →
      Exact bytes position encodedValue Encodes := by
    intro left
    induction left with
    | zero => intro position impossible; omega
    | succ left ih =>
        intro position short next behind found last
        rw [encodedValue_eq]
        exact valueStep_eq_ok_iff (fun inside => ih (next + 1) (by omega))
          found last
  exact atEvery (bytes.size - start + 1) start (by omega)

/-- Reading at a position gives a value and a position behind it exactly if
the bytes in between write that value, and fails exactly if no bytes from the
position on write any value. -/
theorem encodedValue_exact (bytes : Bytes) (start : Nat) :
    (∀ value last, encodedValue bytes start = .ok (value, last) ↔
      start ≤ last ∧ last ≤ bytes.size ∧
        Encodes value (bytes.window start (last - start))) ∧
    ((∃ fault, encodedValue bytes start = .error fault) ↔
      ¬ ∃ value last, start ≤ last ∧ last ≤ bytes.size ∧
        Encodes value (bytes.window start (last - start))) := by
  have accepts : ∀ value last,
      encodedValue bytes start = .ok (value, last) ↔
        start ≤ last ∧ last ≤ bytes.size ∧
          Encodes value (bytes.window start (last - start)) := by
    intro value last
    rw [exact_encodedValue bytes start start (Nat.le_refl start) value last]
    constructor
    · intro ⟨written, stands, ends, encoded⟩
      have positive := encoded.length_pos
      have inside := prefix_drop_inside stands positive
      have window := ((prefix_drop_iff_window positive bytes start written).mp
        ⟨stands, rfl⟩).2
      have length : last - start = written.length := by omega
      refine ⟨by omega, by omega, ?_⟩
      rw [length, ← window]
      exact encoded
    · intro ⟨behind, inside, encoded⟩
      have counted := bytes.length_window
        (show start + (last - start) ≤ bytes.size by omega)
      refine ⟨bytes.window start (last - start), ?_, by omega, encoded⟩
      rw [Bytes.window_eq]
      exact List.take_prefix _ _
  refine ⟨accepts, ?_⟩
  constructor
  · intro ⟨fault, failed⟩ ⟨value, last, encoded⟩
    rw [(accepts value last).mpr encoded] at failed
    cases failed
  · intro noValue
    cases read : encodedValue bytes start with
    | error fault => exact ⟨fault, rfl⟩
    | ok result =>
        rcases result with ⟨value, last⟩
        exact (noValue ⟨value, last, (accepts value last).mp read⟩).elim

end Reader
end DexCensus
