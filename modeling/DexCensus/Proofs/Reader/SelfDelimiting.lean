/-
Readers of values that say themselves where they end.

A successful read takes at least one byte, ends inside the buffer, and is
decided by the bytes it takes.  If the buffer ends before the value does, the
read fails, and the fault is one of the container: a value that is cut off is
never taken for a malformed one of another kind, and never for a shorter one.

The last part is no fact about successful reads alone, since the second of two
joined readers may be the one that fails.  What passes through joining is that
a reader in a cut buffer does what it does in the whole one, or stops with a
fault of the container.  That it does not do the same follows from where the
value would end.
-/

import DexCensus.Proofs.Reader.Local

namespace DexCensus
namespace Reader

open Dex

variable {α β : Type}

def StopsInContainer (outcome : Except Fault (α × Nat)) : Prop :=
  ∃ fault, outcome = .error fault ∧ fault.kind = .malformedContainer

/-- Cutting a buffer off changes nothing but that the reader may stop with a
fault of the container. -/
def CutSafe (reader : Reader α) : Prop :=
  ∀ (cut full : Bytes) (position : Nat), cut.toList <+: full.toList →
    reader cut position = reader full position ∨
      StopsInContainer (reader cut position)

theorem size_le_of_isPrefix {cut full : Bytes}
    (shorter : cut.toList <+: full.toList) : cut.size ≤ full.size := by
  have lengths := shorter.length_le
  rwa [Array.length_toList, Array.length_toList] at lengths

theorem window_isPrefix {cut full : Bytes}
    (shorter : cut.toList <+: full.toList) (start length : Nat) :
    cut.window start length <+: full.window start length := by
  rw [Bytes.window_eq, Bytes.window_eq]
  exact (List.IsPrefix.drop shorter start).take length

theorem window_eq_of_isPrefix {cut full : Bytes}
    (shorter : cut.toList <+: full.toList) {start length : Nat}
    (inside : start + length ≤ cut.size) :
    cut.window start length = full.window start length := by
  have larger := size_le_of_isPrefix shorter
  apply (window_isPrefix shorter start length).eq_of_length
  rw [Bytes.length_window cut inside, Bytes.length_window full (by omega)]

theorem cutSafe_succeed (value : α) : CutSafe (succeed value) :=
  fun _ _ _ _ => Or.inl rfl

theorem cutSafe_stop (fault : Fault) : CutSafe (stop fault : Reader α) :=
  fun _ _ _ _ => Or.inl rfl

theorem cutSafe_position : CutSafe position :=
  fun _ _ _ _ => Or.inl rfl

theorem cutSafe_andThen {first : Reader α} {second : α → Reader β}
    (firstSafe : CutSafe first) (secondSafe : ∀ value, CutSafe (second value)) :
    CutSafe (andThen first second) := by
  intro cut full position shorter
  unfold andThen
  rcases firstSafe cut full position shorter with same | ⟨fault, failed, kind⟩
  · rw [same]
    cases first full position with
    | error fault => exact Or.inl rfl
    | ok read => exact secondSafe read.1 cut full read.2 shorter
  · rw [failed]
    exact Or.inr ⟨fault, rfl, kind⟩

theorem cutSafe_convert {reader : Reader α} (safe : CutSafe reader)
    (convert : α → β) :
    CutSafe (andThen reader fun value => succeed (convert value)) :=
  cutSafe_andThen safe fun _ => cutSafe_succeed _

theorem cutSafe_replicate {reader : Reader α} (safe : CutSafe reader)
    (count : Nat) : CutSafe (replicate reader count) := by
  induction count with
  | zero =>
      rw [replicate_zero]
      exact cutSafe_succeed []
  | succ count ih =>
      rw [replicate_succ]
      exact cutSafe_andThen safe fun _ => cutSafe_convert ih _

theorem cutSafe_take (length : Nat) : CutSafe (take length) := by
  intro cut full position shorter
  have larger := size_le_of_isPrefix shorter
  unfold take
  by_cases inside : position + length ≤ cut.size
  · rw [if_pos inside, if_pos (by omega), window_eq_of_isPrefix shorter inside]
    exact Or.inl rfl
  · rw [if_neg inside]
    exact Or.inr ⟨_, rfl, rfl⟩

theorem cutSafe_fixedNumber (width : NumberWidth) :
    CutSafe (fixedNumber width) := by
  intro cut full position shorter
  have larger := size_le_of_isPrefix shorter
  unfold fixedNumber
  by_cases inside : position + width.size ≤ cut.size
  · rw [if_pos inside, if_pos (by omega), window_eq_of_isPrefix shorter inside]
    exact Or.inl rfl
  · rw [if_neg inside]
    exact Or.inr ⟨_, rfl, rfl⟩

theorem cutSafe_u1 : CutSafe u1 :=
  cutSafe_convert (cutSafe_fixedNumber .one) _

theorem cutSafe_u2 : CutSafe u2 :=
  cutSafe_convert (cutSafe_fixedNumber .two) _

theorem cutSafe_u4 : CutSafe u4 :=
  cutSafe_convert (cutSafe_fixedNumber .four) _

private theorem decodeGroups_of_isPrefix (index : Nat) (cut full : List UInt8)
    (shorter : cut <+: full) :
    Uleb128.decodeGroups index cut = Uleb128.decodeGroups index full ∨
      ∃ available,
        Uleb128.decodeGroups index cut = .error (.varintTruncated available) := by
  induction cut generalizing index full with
  | nil => exact Or.inr ⟨index, rfl⟩
  | cons byte rest ih =>
      cases full with
      | nil => cases List.prefix_nil.mp shorter
      | cons other others =>
          obtain ⟨same, restShorter⟩ := List.cons_prefix_cons.mp shorter
          subst same
          unfold Uleb128.decodeGroups
          by_cases low : byte < 0x80
          · rw [if_pos low, if_pos low]
            exact Or.inl rfl
          · rw [if_neg low, if_neg low]
            by_cases fifth : index = 4
            · rw [if_pos fifth, if_pos fifth]
              exact Or.inl rfl
            · rw [if_neg fifth, if_neg fifth]
              rcases ih (index + 1) others restShorter with
                same | ⟨available, truncated⟩
              · rw [same]
                exact Or.inl rfl
              · rw [truncated]
                exact Or.inr ⟨available, rfl⟩

theorem cutSafe_uleb128 : CutSafe uleb128 := by
  intro cut full position shorter
  have larger := size_le_of_isPrefix shorter
  unfold uleb128
  by_cases inside : position ≤ cut.size
  · rw [if_pos inside, if_pos (by omega)]
    unfold Uleb128.decode
    rcases decodeGroups_of_isPrefix 0 _ _ (window_isPrefix shorter position 5)
      with same | ⟨available, truncated⟩
    · rw [same]
      exact Or.inl rfl
    · rw [truncated]
      exact Or.inr ⟨_, rfl, rfl⟩
  · rw [if_neg inside]
    exact Or.inr ⟨_, rfl, rfl⟩

theorem cutSafe_count : CutSafe count :=
  cutSafe_convert cutSafe_uleb128 _

theorem cutSafe_narrow (size width : Nat) : CutSafe (narrow size width) := by
  unfold narrow
  split
  · exact cutSafe_stop _
  · exact cutSafe_take size

theorem cutSafe_signed (size width : Nat) : CutSafe (signed size width) :=
  cutSafe_convert (cutSafe_narrow size width) _

theorem cutSafe_unsigned (size width : Nat) : CutSafe (unsigned size width) :=
  cutSafe_convert (cutSafe_narrow size width) _

theorem cutSafe_pattern (size width : Nat) : CutSafe (pattern size width) :=
  cutSafe_convert (cutSafe_narrow size width) _

theorem cutSafe_index (size : Nat) : CutSafe (index size) :=
  cutSafe_convert (cutSafe_unsigned size 4) _

section Values

variable {value : Reader EncodedValue}

theorem cutSafe_arrayOf (safe : CutSafe value) : CutSafe (arrayOf value) :=
  cutSafe_andThen cutSafe_count fun size => cutSafe_replicate safe size

theorem cutSafe_elementOf (safe : CutSafe value) :
    CutSafe (elementOf value) :=
  cutSafe_andThen cutSafe_uleb128 fun _ => cutSafe_convert safe _

theorem cutSafe_payloadOf (safe : CutSafe value) :
    CutSafe (payloadOf value) :=
  cutSafe_andThen cutSafe_uleb128 fun _ =>
    cutSafe_andThen cutSafe_count fun size =>
      cutSafe_convert (cutSafe_replicate (cutSafe_elementOf safe) size) _

theorem cutSafe_valueBody (safe : CutSafe value) (start : Nat)
    (type argument : UInt8) :
    CutSafe (valueBody value start type argument) := by
  unfold valueBody
  split
  · exact cutSafe_convert (cutSafe_signed _ _) _
  · exact cutSafe_convert (cutSafe_signed _ _) _
  · exact cutSafe_convert (cutSafe_unsigned _ _) _
  · exact cutSafe_convert (cutSafe_signed _ _) _
  · exact cutSafe_convert (cutSafe_signed _ _) _
  · exact cutSafe_convert (cutSafe_pattern _ _) _
  · exact cutSafe_convert (cutSafe_pattern _ _) _
  · exact cutSafe_convert (cutSafe_index _) _
  · exact cutSafe_convert (cutSafe_index _) _
  · exact cutSafe_convert (cutSafe_index _) _
  · exact cutSafe_convert (cutSafe_index _) _
  · exact cutSafe_convert (cutSafe_index _) _
  · exact cutSafe_convert (cutSafe_index _) _
  · exact cutSafe_convert (cutSafe_index _) _
  · exact cutSafe_convert (cutSafe_arrayOf safe) _
  · exact cutSafe_convert (cutSafe_payloadOf safe) _
  · exact cutSafe_succeed _
  · exact cutSafe_succeed _
  · exact cutSafe_stop _

theorem cutSafe_valueStep (safe : CutSafe value) :
    CutSafe (valueStep value) := by
  unfold valueStep
  rw [bind_eq]
  refine cutSafe_andThen cutSafe_position fun start => ?_
  rw [bind_eq]
  refine cutSafe_andThen cutSafe_u1 fun header => ?_
  exact cutSafe_valueBody safe start (header &&& 0x1f) (header >>> 5)

end Values

theorem cutSafe_valueWithin (depth : Nat) : CutSafe (valueWithin depth) := by
  induction depth with
  | zero =>
      intro cut full position shorter
      exact Or.inl rfl
  | succ depth ih => exact cutSafe_valueStep ih

theorem cutSafe_encodedValue : CutSafe encodedValue := by
  intro cut full position shorter
  have larger := size_le_of_isPrefix shorter
  have enough : full.size - position < full.size - position + 1 := by omega
  have enoughInCut : cut.size - position < full.size - position + 1 := by omega
  rw [← valueWithin_eq enough, ← valueWithin_eq enoughInCut]
  exact cutSafe_valueWithin _ cut full position shorter

/-! ### Records -/

theorem cutSafe_prototype : CutSafe prototype :=
  cutSafe_andThen cutSafe_u4 fun _ => cutSafe_andThen cutSafe_u4 fun _ =>
    cutSafe_convert cutSafe_u4 _

theorem cutSafe_shortIndex : CutSafe shortIndex :=
  cutSafe_convert cutSafe_u2 _

theorem cutSafe_field : CutSafe field :=
  cutSafe_andThen cutSafe_shortIndex fun _ =>
    cutSafe_andThen cutSafe_shortIndex fun _ => cutSafe_convert cutSafe_u4 _

theorem cutSafe_method : CutSafe method :=
  cutSafe_andThen cutSafe_shortIndex fun _ =>
    cutSafe_andThen cutSafe_shortIndex fun _ => cutSafe_convert cutSafe_u4 _

theorem cutSafe_classDef : CutSafe classDef := by
  iterate 8
    apply cutSafe_andThen cutSafe_u4
    intro _
  exact cutSafe_succeed _

theorem cutSafe_memberFields (size : Nat) : CutSafe (memberFields size) := by
  have each : CutSafe relativeField :=
    cutSafe_andThen cutSafe_uleb128 fun _ => cutSafe_convert cutSafe_uleb128 _
  exact cutSafe_convert (cutSafe_replicate each size) _

theorem cutSafe_memberMethods (size : Nat) : CutSafe (memberMethods size) := by
  have each : CutSafe relativeMethod :=
    cutSafe_andThen cutSafe_uleb128 fun _ =>
      cutSafe_andThen cutSafe_uleb128 fun _ =>
        cutSafe_convert cutSafe_uleb128 _
  exact cutSafe_convert (cutSafe_replicate each size) _

theorem cutSafe_classData : CutSafe classData := by
  iterate 4
    apply cutSafe_andThen cutSafe_count
    intro _
  iterate 2
    apply cutSafe_andThen (cutSafe_memberFields _)
    intro _
  iterate 2
    apply cutSafe_andThen (cutSafe_memberMethods _)
    intro _
  exact cutSafe_succeed _

theorem cutSafe_encodedArray : CutSafe encodedArray :=
  cutSafe_arrayOf cutSafe_encodedValue

theorem cutSafe_element : CutSafe element :=
  cutSafe_elementOf cutSafe_encodedValue

theorem cutSafe_payload : CutSafe payload :=
  cutSafe_payloadOf cutSafe_encodedValue

theorem cutSafe_item : CutSafe item :=
  cutSafe_andThen cutSafe_u1 fun _ => cutSafe_convert cutSafe_payload _

theorem cutSafe_itemOffsets : CutSafe itemOffsets :=
  cutSafe_andThen cutSafe_u4 fun size =>
    cutSafe_replicate cutSafe_u4 size.toNat

theorem cutSafe_attachment : CutSafe attachment :=
  cutSafe_andThen cutSafe_u4 fun _ => cutSafe_convert cutSafe_u4 _

theorem cutSafe_directory : CutSafe directory := by
  iterate 4
    apply cutSafe_andThen cutSafe_u4
    intro _
  iterate 3
    apply cutSafe_andThen (cutSafe_replicate cutSafe_attachment _)
    intro _
  exact cutSafe_succeed _

/-! ### Values that say where they end -/

/-- What a successful read from `start` to `next` says about all buffers that
hold the bytes it took, and about all that end before `next`. -/
structure Delimited (reader : Reader α) (bytes : Bytes) (start : Nat)
    (value : α) (next : Nat) : Prop where
  advances : start < next
  inside : next ≤ bytes.size
  determined : ∀ other : Bytes,
    (∀ position, start ≤ position → position < next →
      other[position]? = bytes[position]?) →
    reader other start = .ok (value, next)
  incomplete : ∀ size, start ≤ size → size < next →
    StopsInContainer (reader (bytes.take size) start)

def SelfDelimiting (reader : Reader α) : Prop :=
  ∀ bytes start value next, reader bytes start = .ok (value, next) →
    Delimited reader bytes start value next

private theorem toList_take (bytes : Bytes) (size : Nat) :
    (bytes.take size).toList = bytes.toList.take size := by
  rw [Array.take_eq_extract, Array.toList_extract, List.extract_eq_take_drop,
    List.drop_zero, Nat.sub_zero]

private theorem isPrefix_drop_congr {bytes other : Bytes} {start : Nat}
    {written : List UInt8} (stands : written <+: bytes.toList.drop start)
    (agree : ∀ position, start ≤ position →
      position < start + written.length →
        other[position]? = bytes[position]?) :
    written <+: other.toList.drop start := by
  rw [List.prefix_iff_getElem?] at stands ⊢
  intro index within
  have same := agree (start + index) (by omega) (by omega)
  have stood := stands index within
  rw [List.getElem?_drop, Array.getElem?_toList] at stood ⊢
  rw [same, stood]

theorem Local.advances {reader : Reader α} (isLocal : Local reader)
    (needsByte : StopsInContainer (reader #[] 0)) {bytes : Bytes}
    {start next : Nat} {value : α}
    (read : reader bytes start = .ok (value, next)) : start < next := by
  rcases isLocal with ⟨grammar, exact⟩
  obtain ⟨written, _, ends, meant⟩ :=
    (exact bytes start (Nat.zero_le _) value next).mp read
  have nonempty : written ≠ [] := by
    intro nothing
    subst nothing
    have found : reader #[] 0 = .ok (value, 0) :=
      (exact #[] 0 (Nat.le_refl 0) value 0).mpr
        ⟨[], List.nil_prefix, rfl, meant⟩
    obtain ⟨fault, failed, _⟩ := needsByte
    rw [found] at failed
    cases failed
  have positive := List.length_pos_iff.mpr nonempty
  omega

theorem Local.next_le {reader : Reader α} (isLocal : Local reader)
    (needsByte : StopsInContainer (reader #[] 0)) {bytes : Bytes}
    {start next : Nat} {value : α}
    (read : reader bytes start = .ok (value, next)) : next ≤ bytes.size := by
  have ahead := isLocal.advances needsByte read
  rcases isLocal with ⟨grammar, exact⟩
  obtain ⟨written, stands, ends, _⟩ :=
    (exact bytes start (Nat.zero_le _) value next).mp read
  have inside := prefix_drop_inside stands (by omega)
  omega

theorem Local.selfDelimiting {reader : Reader α} (isLocal : Local reader)
    (safe : CutSafe reader) (needsByte : StopsInContainer (reader #[] 0)) :
    SelfDelimiting reader := by
  intro bytes start value next read
  refine
    { advances := isLocal.advances needsByte read
      inside := isLocal.next_le needsByte read
      determined := ?determined
      incomplete := ?incomplete }
  case determined =>
    intro other agree
    rcases isLocal with ⟨grammar, exact⟩
    obtain ⟨written, stands, ends, meant⟩ :=
      (exact bytes start (Nat.zero_le _) value next).mp read
    subst ends
    exact (exact other start (Nat.zero_le _) value _).mpr
      ⟨written, isPrefix_drop_congr stands agree, rfl, meant⟩
  case incomplete =>
    intro size behind cutOff
    have shorter : (bytes.take size).toList <+: bytes.toList := by
      rw [toList_take]
      exact List.take_prefix size bytes.toList
    rcases safe (bytes.take size) bytes start shorter with same | stops
    · -- The value would end behind the cut.
      rw [read] at same
      have ends := isLocal.next_le needsByte same
      have length : (bytes.take size).size ≤ size := by
        rw [← Array.length_toList, toList_take]
        exact List.length_take_le size bytes.toList
      omega
    · exact stops

private theorem selfDelimiting_encodedValue : SelfDelimiting encodedValue := by
  refine local_encodedValue.selfDelimiting cutSafe_encodedValue ?_
  rw [encodedValue_eq]
  exact ⟨_, rfl, rfl⟩

/-- Wherever a value of any kind is read, the bytes taken decide it, and no
buffer that ends before the value does is read as anything else.  A number of
four bytes is the record of the tables of strings and of types. -/
theorem readers_selfDelimiting :
    SelfDelimiting uleb128 ∧ SelfDelimiting u4 ∧ SelfDelimiting prototype ∧
    SelfDelimiting field ∧ SelfDelimiting method ∧ SelfDelimiting classDef ∧
    SelfDelimiting classData ∧ SelfDelimiting encodedValue ∧
    SelfDelimiting encodedArray ∧ SelfDelimiting payload ∧
    SelfDelimiting element ∧ SelfDelimiting item ∧
    SelfDelimiting itemOffsets ∧ SelfDelimiting directory :=
  ⟨local_uleb128.selfDelimiting cutSafe_uleb128 ⟨_, rfl, rfl⟩,
    local_u4.selfDelimiting cutSafe_u4 ⟨_, rfl, rfl⟩,
    local_prototype.selfDelimiting cutSafe_prototype ⟨_, rfl, rfl⟩,
    local_field.selfDelimiting cutSafe_field ⟨_, rfl, rfl⟩,
    local_method.selfDelimiting cutSafe_method ⟨_, rfl, rfl⟩,
    local_classDef.selfDelimiting cutSafe_classDef ⟨_, rfl, rfl⟩,
    local_classData.selfDelimiting cutSafe_classData ⟨_, rfl, rfl⟩,
    selfDelimiting_encodedValue,
    local_encodedArray.selfDelimiting cutSafe_encodedArray ⟨_, rfl, rfl⟩,
    local_payload.selfDelimiting cutSafe_payload ⟨_, rfl, rfl⟩,
    local_element.selfDelimiting cutSafe_element ⟨_, rfl, rfl⟩,
    local_item.selfDelimiting cutSafe_item ⟨_, rfl, rfl⟩,
    local_itemOffsets.selfDelimiting cutSafe_itemOffsets ⟨_, rfl, rfl⟩,
    local_directory.selfDelimiting cutSafe_directory ⟨_, rfl, rfl⟩⟩

/-- An item behind a byte of something else: its one element is an array of
one empty value, so the last byte ends the value, the array, the element and
the item. -/
def itemBytes : Bytes :=
  #[0xff, 0x01, 0x05, 0x01, 0x02, 0x1c, 0x01, 0x1e]

def itemValue : Item :=
  { visibility := 1
    payload := { type := 5, elements := [(2, .array [.null])] } }

private theorem item_itemBytes : item itemBytes 1 = .ok (itemValue, 8) := by
  cbv

theorem itemBytes_cut_stops :
    item itemBytes 1 = .ok (itemValue, 8) ∧
      StopsInContainer (item (itemBytes.take 7) 1) := by
  obtain ⟨_, _, _, _, _, _, _, _, _, _, _, delimiting, _⟩ :=
    readers_selfDelimiting
  exact ⟨item_itemBytes,
    (delimiting itemBytes 1 itemValue 8 item_itemBytes).incomplete 7
      (by decide) (by decide)⟩

end Reader
end DexCensus
