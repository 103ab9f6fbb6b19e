/-
The recursion of encoded values ends and does not amplify its input.

The readers of values, arrays and annotations call each other, as often as
counts in the input say.  The relation `Calls` names every such call.  A call
starts behind the one that makes it and not behind the end of the buffer, so
no chain of calls is longer than the bytes that are left.  The definition of
the readers carries a bound on the depth; here it is shown that unrolling the
recursion as often reaches no call that is left open.

Each value and each element takes a byte of its own, hence no input is read as
more values and elements than it has bytes.
-/

import DexCensus.Proofs.EncodedValue.Canonical
import DexCensus.Proofs.Reader.SelfDelimiting
import DexCensus.Proofs.Resolution
import Mathlib.Logic.Function.Iterate

namespace DexCensus

namespace Dex

mutual

def EncodedValue.valueCount : EncodedValue → Nat
  | .array values => 1 + valueCountList values
  | .nested _ elements => 1 + valueCountElements elements
  | _ => 1

def EncodedValue.valueCountList : List EncodedValue → Nat
  | [] => 0
  | value :: rest => value.valueCount + valueCountList rest

def EncodedValue.valueCountElements : List (UInt32 × EncodedValue) → Nat
  | [] => 0
  | (_, value) :: rest => value.valueCount + valueCountElements rest

end

mutual

def EncodedValue.elementCount : EncodedValue → Nat
  | .array values => elementCountList values
  | .nested _ elements => elementCountElements elements
  | _ => 0

def EncodedValue.elementCountList : List EncodedValue → Nat
  | [] => 0
  | value :: rest => value.elementCount + elementCountList rest

def EncodedValue.elementCountElements : List (UInt32 × EncodedValue) → Nat
  | [] => 0
  | (_, value) :: rest => 1 + value.elementCount + elementCountElements rest

end

theorem counts_le_flatMap_canonical {values : List EncodedValue}
    (each : ∀ value ∈ values,
      value.valueCount + value.elementCount ≤ value.canonical.length) :
    EncodedValue.valueCountList values
        + EncodedValue.elementCountList values ≤
      (values.flatMap EncodedValue.canonical).length := by
  induction values with
  | nil => exact Nat.le_refl 0
  | cons value rest ih =>
      obtain ⟨here, others⟩ := List.forall_mem_cons.mp each
      have later := ih others
      rw [EncodedValue.valueCountList, EncodedValue.elementCountList,
        List.flatMap_cons, List.length_append]
      omega

theorem length_encode_pos (value : UInt32) :
    0 < (Uleb128.encode value).length :=
  (Uleb128.written_encode value).run.length_pos

theorem counts_le_flatMap_elementBytes {elements : List Element}
    (each : ∀ element ∈ elements,
      element.2.valueCount + element.2.elementCount ≤
        element.2.canonical.length) :
    EncodedValue.valueCountElements elements
        + EncodedValue.elementCountElements elements ≤
      (elements.flatMap elementBytes).length := by
  induction elements with
  | nil => exact Nat.le_refl 0
  | cons element rest ih =>
      obtain ⟨here, others⟩ := List.forall_mem_cons.mp each
      have later := ih others
      have named := length_encode_pos element.1
      rw [EncodedValue.valueCountElements, EncodedValue.elementCountElements,
        List.flatMap_cons, elementBytes, List.length_append, List.length_append]
      omega

theorem EncodedValue.counts_le_canonical (value : EncodedValue) :
    value.valueCount + value.elementCount ≤ value.canonical.length := by
  induction value using EncodedValue.subvalues_induction with
  | step value ih =>
      cases value with
      | array values =>
          have inside : valueCountList values + elementCountList values ≤
              (values.flatMap canonical).length :=
            counts_le_flatMap_canonical ih
          rw [valueCount, elementCount, canonical_array, List.length_cons,
            List.length_append]
          omega
      | nested type elements =>
          have inside := counts_le_flatMap_elementBytes fun element member =>
            ih element.2 (List.mem_map_of_mem member)
          rw [valueCount, elementCount, canonical_nested, List.length_cons,
            List.length_append, List.length_append]
          omega
      | _ => exact Nat.succ_le_succ (Nat.zero_le _)

end Dex

namespace Reader

open Dex Grammar

variable {bytes : Bytes} {start : Nat}

/-! ### Calls -/

/-- A call of one of the three readers that call each other. -/
inductive Call where
  | value (start : Nat)
  | array (start : Nat)
  | nested (start : Nat)

def Call.position : Call → Nat
  | .value start | .array start | .nested start => start

/-- The calls that a call makes itself.  A header byte may call for an array
or an annotation right behind it.  These read how many values they have, and
then call for one value after another until one is not read: as the call after
`done` others shows where those ended. -/
inductive Calls (bytes : Bytes) : Call → Call → Prop
  | array {start next : Nat} {header : UInt8} :
      u1 bytes start = .ok (header, next) → header.toNat % 32 = 0x1c →
        Calls bytes (.value start) (.array next)
  | nested {start next : Nat} {header : UInt8} :
      u1 bytes start = .ok (header, next) → header.toNat % 32 = 0x1d →
        Calls bytes (.value start) (.nested next)
  | item {start first size done next : Nat} {values : List EncodedValue} :
      count bytes start = .ok (size, first) → done < size →
      replicate encodedValue done bytes first = .ok (values, next) →
        Calls bytes (.array start) (.value next)
  | element {start behindType first size done behind next : Nat}
      {type name : UInt32} {elements : List Element} :
      uleb128 bytes start = .ok (type, behindType) →
      count bytes behindType = .ok (size, first) → done < size →
      replicate element done bytes first = .ok (elements, behind) →
      uleb128 bytes behind = .ok (name, next) →
        Calls bytes (.nested start) (.value next)

def Moves {α : Type} (reader : Reader α) : Prop :=
  ∀ bytes start value next, reader bytes start = .ok (value, next) →
    start < next ∧ next ≤ bytes.size

theorem Local.moves {α : Type} {reader : Reader α} (isLocal : Local reader)
    (needsByte : StopsInContainer (reader #[] 0)) : Moves reader :=
  fun _ _ _ _ read =>
    ⟨isLocal.advances needsByte read, isLocal.next_le needsByte read⟩

private theorem moves_u1 : Moves u1 :=
  local_u1.moves ⟨_, rfl, rfl⟩

private theorem moves_uleb128 : Moves uleb128 :=
  local_uleb128.moves ⟨_, rfl, rfl⟩

theorem moves_count : Moves count :=
  local_count.moves ⟨_, rfl, rfl⟩

private theorem moves_encodedValue : Moves encodedValue :=
  local_encodedValue.moves ⟨_, rfl, rfl⟩

private theorem moves_element : Moves element :=
  local_element.moves ⟨_, rfl, rfl⟩

private theorem Moves.replicate {α : Type} {reader : Reader α}
    (moves : Moves reader)
    {start done next : Nat} {values : List α} (inside : start ≤ bytes.size)
    (read : replicate reader done bytes start = .ok (values, next)) :
    start ≤ next ∧ next ≤ bytes.size := by
  induction done generalizing start values with
  | zero =>
      cases read
      exact ⟨Nat.le_refl _, inside⟩
  | succ done ih =>
      rw [replicate_succ] at read
      obtain ⟨value, middle, first, rest⟩ := andThen_eq_ok_iff.mp read
      obtain ⟨others, last, repeated, same⟩ := andThen_eq_ok_iff.mp rest
      cases same
      have moved := moves bytes start value middle first
      have later := ih moved.2 repeated
      omega

theorem Calls.behind {outer inner : Call} (calls : Calls bytes outer inner) :
    outer.position < inner.position ∧ inner.position ≤ bytes.size := by
  cases calls with
  | array header _ => exact moves_u1 _ _ _ _ header
  | nested header _ => exact moves_u1 _ _ _ _ header
  | item counted _ before =>
      have first := moves_count _ _ _ _ counted
      have moved := moves_encodedValue.replicate first.2 before
      exact ⟨Nat.lt_of_lt_of_le first.1 moved.1, moved.2⟩
  | element typed counted _ before named =>
      have afterType := moves_uleb128 _ _ _ _ typed
      have first := moves_count _ _ _ _ counted
      have moved := moves_element.replicate first.2 before
      have afterName := moves_uleb128 _ _ _ _ named
      simp only [Call.position]
      omega

private theorem wellFounded_calls (bytes : Bytes) :
    WellFounded fun inner outer => Calls bytes outer inner := by
  have left := (measure fun call : Call => bytes.size - call.position).wf
  refine Subrelation.wf (fun {inner outer} calls => ?_) left
  have behind := calls.behind
  show bytes.size - inner.position < bytes.size - outer.position
  omega

def AgreeAt {α : Type} (bytes : Bytes) (start : Nat)
    (left right : Reader α) : Prop :=
  left bytes start = right bytes start

theorem AgreeAt.andThen {α β : Type} {left right : Reader α}
    {leftNext rightNext : α → Reader β}
    (agree : AgreeAt bytes start left right)
    (agreeNext : ∀ value next, right bytes start = .ok (value, next) →
      AgreeAt bytes next (leftNext value) (rightNext value)) :
    AgreeAt bytes start (andThen left leftNext)
      (andThen right rightNext) := by
  unfold AgreeAt Reader.andThen
  rw [agree]
  cases read : right bytes start with
  | error fault => rfl
  | ok result => exact agreeNext result.1 result.2 read

theorem AgreeAt.replicate {α : Type} {left right : Reader α} {size : Nat}
    (agree : ∀ done values next, done < size →
      replicate right done bytes start = .ok (values, next) →
      AgreeAt bytes next left right) :
    AgreeAt bytes start (replicate left size) (replicate right size) := by
  induction size generalizing start with
  | zero => rfl
  | succ size ih =>
      rw [replicate_succ, replicate_succ]
      apply (agree 0 [] start (Nat.succ_pos size) rfl).andThen
      intro value middle read
      refine (ih ?_).andThen fun _ _ _ => rfl
      intro done values next within before
      apply agree (done + 1) (value :: values) next (by omega)
      rw [replicate_succ]
      exact andThen_eq_ok_iff.mpr ⟨value, middle, read,
        andThen_eq_ok_iff.mpr ⟨values, next, before, rfl⟩⟩

variable {inner : Reader EncodedValue}

theorem arrayOf_of_calls
    (agree : ∀ place, Calls bytes (.array start) (.value place) →
      AgreeAt bytes place inner encodedValue) :
    AgreeAt bytes start (arrayOf inner) encodedArray := by
  refine AgreeAt.andThen rfl fun size first counted => ?_
  apply AgreeAt.replicate
  intro done values next within before
  exact agree next (.item counted within before)

theorem payloadOf_of_calls
    (agree : ∀ place, Calls bytes (.nested start) (.value place) →
      AgreeAt bytes place inner encodedValue) :
    AgreeAt bytes start (payloadOf inner) payload := by
  refine AgreeAt.andThen rfl fun type behindType typed => ?_
  refine AgreeAt.andThen rfl fun size first counted => ?_
  refine AgreeAt.andThen ?_ fun _ _ _ => rfl
  apply AgreeAt.replicate
  intro done elements behind within before
  refine AgreeAt.andThen rfl fun name next named => ?_
  exact (agree next (.element typed counted within before named)).andThen
    fun _ _ _ => rfl

private theorem valueBody_of_parts {type argument : UInt8} {origin : Nat}
    (array : type.toNat = 0x1c →
      AgreeAt bytes start (arrayOf inner) encodedArray)
    (nested : type.toNat = 0x1d →
      AgreeAt bytes start (payloadOf inner) payload) :
    AgreeAt bytes start (valueBody inner origin type argument)
      (valueBody encodedValue origin type argument) := by
  unfold valueBody
  split
  case h_15 isArray => exact (array isArray).andThen fun _ _ _ => rfl
  case h_16 isNested => exact (nested isNested).andThen fun _ _ _ => rfl
  all_goals rfl

theorem valueStep_of_calls
    (agree : ∀ middle place, Calls bytes (.value start) middle →
      Calls bytes middle (.value place) →
      AgreeAt bytes place inner encodedValue) :
    AgreeAt bytes start (valueStep inner) encodedValue := by
  rw [encodedValue_eq]
  show AgreeAt bytes start (Reader.andThen u1 _) (Reader.andThen u1 _)
  refine AgreeAt.andThen rfl fun header next read => ?_
  apply valueBody_of_parts
  · intro isArray
    rw [header_type_toNat] at isArray
    exact arrayOf_of_calls fun place => agree _ place (.array read isArray)
  · intro isNested
    rw [header_type_toNat] at isNested
    exact payloadOf_of_calls fun place =>
      agree _ place (.nested read isNested)

private theorem iterate_valueStep {rounds : Nat}
    (enough : bytes.size - start < rounds)
    (bottom : Reader EncodedValue) :
    valueStep^[rounds] bottom bytes start = encodedValue bytes start := by
  induction rounds generalizing start with
  | zero => omega
  | succ rounds ih =>
      rw [Function.iterate_succ_apply']
      apply valueStep_of_calls
      intro middle place first second
      have behindHeader := first.behind
      have behindCount := second.behind
      simp only [Call.position] at behindHeader behindCount
      exact ih (by omega)

private theorem encodedValue_counts {value : EncodedValue} {next : Nat}
    (read : encodedValue bytes start = .ok (value, next)) :
    start + (value.valueCount + value.elementCount) ≤ next := by
  obtain ⟨written, _, ends, encoded⟩ :=
    (exact_encodedValue bytes start start (Nat.le_refl _) value next).mp read
  have fewest := encoded.shortest.2
  have counted := value.counts_le_canonical
  omega

private theorem encodedArray_counts {values : List EncodedValue} {next : Nat}
    (read : encodedArray bytes start = .ok (values, next)) :
    start + (EncodedValue.valueCountList values
      + EncodedValue.elementCountList values) ≤ next := by
  obtain ⟨size, first, counted, repeated⟩ := andThen_eq_ok_iff.mp read
  obtain ⟨content, _, ends, _, each⟩ :=
    ((exact_encodedValue bytes first).replicate size first (Nat.le_refl _)
      values next).mp repeated
  have moved := moves_count _ _ _ _ counted
  have fewest := each.length_flatMap_le fun _ _ encoded => encoded.shortest.2
  have inside : EncodedValue.valueCountList values
      + EncodedValue.elementCountList values ≤
        (values.flatMap EncodedValue.canonical).length :=
    counts_le_flatMap_canonical fun value _ => value.counts_le_canonical
  omega

theorem length_elementBytes_le {found : Element} {written : List UInt8}
    (named : NamedValue Encodes found written) :
    (elementBytes found).length ≤ written.length := by
  cases named with
  | mk isName encoded =>
      rw [elementBytes, List.length_append, List.length_append]
      exact Nat.add_le_add (Uleb128.length_encode_le isName) encoded.shortest.2

private theorem payload_counts {found : Payload} {next : Nat}
    (read : payload bytes start = .ok (found, next)) :
    start + (EncodedValue.valueCountElements found.elements
      + EncodedValue.elementCountElements found.elements) ≤ next := by
  obtain ⟨written, _, ends, front, size, content, split, _, _, each⟩ :=
    (exact_payloadOf (exact_encodedValue bytes start) start (Nat.le_refl _)
      found next).mp read
  have shortest : ∀ element part, NamedValue Encodes element part →
      (elementBytes element).length ≤ part.length :=
    fun _ _ => length_elementBytes_le
  have fewest := each.length_flatMap_le shortest
  have inside : EncodedValue.valueCountElements found.elements
      + EncodedValue.elementCountElements found.elements ≤
        (found.elements.flatMap elementBytes).length :=
    counts_le_flatMap_elementBytes fun element _ =>
      element.2.counts_le_canonical
  rw [split, List.length_append, List.length_append] at ends
  omega

/-! ### The whole recursion -/

/-- Reading values, arrays and annotations ends, and its result is no larger
than what was read.  Every call starts behind the one that makes it and not
behind the end of the buffer, so that no chain of calls goes on for ever.  The
three readers ask for a value nowhere but where a call does.  Unrolled more
often than bytes are left, the recursion gives what the readers give, whatever
is put in place of the calls that are left open.  Values and elements together
are at most as many as the bytes that were read. -/
theorem recursion_ends_unamplified :
    (∀ bytes outer inner, Calls bytes outer inner →
      outer.position < inner.position ∧ inner.position ≤ bytes.size) ∧
    (∀ bytes, WellFounded fun inner outer => Calls bytes outer inner) ∧
    (∀ bytes start inner,
      ((∀ middle place, Calls bytes (.value start) middle →
          Calls bytes middle (.value place) →
          inner bytes place = encodedValue bytes place) →
        valueStep inner bytes start = encodedValue bytes start) ∧
      ((∀ place, Calls bytes (.array start) (.value place) →
          inner bytes place = encodedValue bytes place) →
        arrayOf inner bytes start = encodedArray bytes start) ∧
      ((∀ place, Calls bytes (.nested start) (.value place) →
          inner bytes place = encodedValue bytes place) →
        payloadOf inner bytes start = payload bytes start)) ∧
    (∀ bytes start rounds bottom, bytes.size - start < rounds →
      valueStep^[rounds] bottom bytes start = encodedValue bytes start ∧
      arrayOf (valueStep^[rounds] bottom) bytes start =
        encodedArray bytes start ∧
      payloadOf (valueStep^[rounds] bottom) bytes start =
        payload bytes start) ∧
    (∀ bytes start value next, encodedValue bytes start = .ok (value, next) →
      start + (value.valueCount + value.elementCount) ≤ next) ∧
    (∀ bytes start values next,
      encodedArray bytes start = .ok (values, next) →
      start + (EncodedValue.valueCountList values
        + EncodedValue.elementCountList values) ≤ next) ∧
    ∀ bytes start found next, payload bytes start = .ok (found, next) →
      start + (EncodedValue.valueCountElements found.elements
        + EncodedValue.elementCountElements found.elements) ≤ next := by
  refine ⟨fun _ _ _ calls => calls.behind, wellFounded_calls, ?_, ?_,
    fun _ _ _ _ => encodedValue_counts, fun _ _ _ _ => encodedArray_counts,
    fun _ _ _ _ => payload_counts⟩
  · intro bytes start inner
    exact ⟨valueStep_of_calls, arrayOf_of_calls, payloadOf_of_calls⟩
  · intro bytes start rounds bottom enough
    refine ⟨iterate_valueStep enough bottom, arrayOf_of_calls ?_,
      payloadOf_of_calls ?_⟩ <;>
    · intro place calls
      have behind := calls.behind
      simp only [Call.position] at behind
      exact iterate_valueStep (by omega) bottom

/-- An array of a null and of an annotation, whose one element is an empty
array. -/
def mixedBytes : Bytes :=
  #[0x1c, 0x02, 0x1e, 0x1d, 0x05, 0x01, 0x06, 0x1c, 0x00]

def mixedTree : EncodedValue :=
  .array [.null, .nested 5 [(6, .array [])]]

/-- An array that claims 2 ^ 32 - 1 values and holds none. -/
def boastingBytes : Bytes :=
  #[0x1c, 0xff, 0xff, 0xff, 0xff, 0x0f]

/-- The values behind a place, and a fault up to it. -/
def valuesBehind (place : Nat) : Reader EncodedValue :=
  fun bytes position =>
    if position ≤ place then .error .varintOverlong
    else encodedValue bytes position

/-- Nine bytes hold four values and an element.  The last call among them is
behind the one that makes it, and none asks for a value at its first two
bytes.  However much is claimed, few rounds tell that it is not there. -/
theorem mixedBytes_bounded :
    Calls mixedBytes (.nested 4) (.value 7) ∧ 4 < 7 ∧
    valueStep (valuesBehind 1) mixedBytes 0 = .ok (mixedTree, 9) ∧
    encodedValue mixedBytes 0 = .ok (mixedTree, 9) ∧
    mixedTree.valueCount = 4 ∧ mixedTree.elementCount = 1 ∧
    0 + (mixedTree.valueCount + mixedTree.elementCount) ≤ 9 ∧
    payload mixedBytes 4 =
      .ok ({ type := 5, elements := [(6, .array [])] }, 9) ∧
    4 + (1 + 1) ≤ 9 ∧
    valueStep^[7] (succeed .null) boastingBytes 0 =
      .error (.numberPastEnd .one 6) := by
  obtain ⟨behind, _, onlyCalls, unrolled, values, _, payloads⟩ :=
    recursion_ends_unamplified
  have counted : count mixedBytes 5 = .ok (1, 6) := rfl
  have noneBefore : replicate element 0 mixedBytes 6 = .ok ([], 6) := rfl
  have named : uleb128 mixedBytes 6 = .ok (6, 7) := rfl
  have lastCall : Calls mixedBytes (.nested 4) (.value 7) :=
    .element rfl counted (by decide) noneBefore named
  have read : encodedValue mixedBytes 0 = .ok (mixedTree, 9) := rfl
  refine ⟨lastCall, (behind _ _ _ lastCall).1, ?_, read, rfl, rfl,
    values _ _ _ _ read, rfl, payloads mixedBytes 4 _ 9 rfl, ?_⟩
  · refine ((onlyCalls mixedBytes 0 (valuesBehind 1)).1 ?_).trans read
    intro middle place first second
    have behindHeader := behind _ _ _ first
    have behindCount := behind _ _ _ second
    simp only [Call.position] at behindHeader behindCount
    exact if_neg (by omega)
  · exact (unrolled boastingBytes 0 7 (succeed .null) (by decide)).1

end Reader
end DexCensus
