/-
Readers that read exactly what a grammar allows.

A grammar relates values to the bytes that write them.  A reader is exact for
a grammar if it succeeds with a value precisely when bytes that write the
value stand at its position, and if it ends right behind them.  Exactness
passes through joining and repetition.

Since only the bytes read matter, an exact reader does the same in every
buffer that holds these bytes at the same place.
-/

import DexCensus.Reader

namespace DexCensus

-- Powers of numbers are those of the core library, whatever else is imported.
attribute [local instance (high)] instPowNat

/-- Which bytes write which values. -/
abbrev Grammar (α : Type) : Type :=
  α → List UInt8 → Prop

namespace Grammar

variable {α β : Type}

def empty (value : α) : Grammar α :=
  fun found written => found = value ∧ written = []

/-- Bytes of a first value, then bytes whose grammar it chooses. -/
def join (first : Grammar α) (second : α → Grammar β) : Grammar β :=
  fun found written =>
    ∃ value front back, written = front ++ back ∧ first value front ∧
      second value found back

inductive Sequence (each : Grammar α) : Grammar (List α)
  | nil : Sequence each [] []
  | cons {value : α} {values : List α} {front back : List UInt8} :
      each value front → Sequence each values back →
        Sequence each (value :: values) (front ++ back)

def repeated (each : Grammar α) (count : Nat) : Grammar (List α) :=
  fun found written => found.length = count ∧ Sequence each found written

variable {each : Grammar α}

theorem sequence_nil_iff (written : List UInt8) :
    Sequence each [] written ↔ written = [] := by
  constructor
  · intro sequence
    cases sequence
    rfl
  · intro nothing
    rw [nothing]
    exact Sequence.nil

theorem sequence_cons_iff (value : α) (values : List α)
    (written : List UInt8) :
    Sequence each (value :: values) written ↔
      ∃ front back, written = front ++ back ∧ each value front ∧
        Sequence each values back := by
  constructor
  · intro sequence
    cases sequence with
    | cons meant rest => exact ⟨_, _, rfl, meant, rest⟩
  · intro ⟨front, back, split, meant, rest⟩
    rw [split]
    exact Sequence.cons meant rest

theorem sequence_append_iff (values others : List α)
    (written : List UInt8) :
    Sequence each (values ++ others) written ↔
      ∃ front back, written = front ++ back ∧ Sequence each values front ∧
        Sequence each others back := by
  induction values generalizing written with
  | nil =>
      constructor
      · intro sequence
        exact ⟨[], written, rfl, Sequence.nil, sequence⟩
      · intro ⟨front, back, split, nothing, sequence⟩
        rw [split, (sequence_nil_iff front).mp nothing]
        exact sequence
  | cons value rest ih =>
      rw [List.cons_append, sequence_cons_iff]
      constructor
      · intro ⟨first, behind, split, meant, sequence⟩
        obtain ⟨front, back, splitAgain, middle, last⟩ :=
          (ih behind).mp sequence
        refine ⟨first ++ front, back, ?_, Sequence.cons meant middle, last⟩
        rw [split, splitAgain, List.append_assoc]
      · intro ⟨front, back, split, sequence, last⟩
        obtain ⟨first, middle, splitAgain, meant, others⟩ :=
          (sequence_cons_iff value rest front).mp sequence
        refine ⟨first, middle ++ back, ?_, meant,
          (ih _).mpr ⟨middle, back, rfl, others, last⟩⟩
        rw [split, splitAgain, List.append_assoc]

theorem sequence_flatMap_iff (parts : β → List α) (values : List β)
    (written : List UInt8) :
    Sequence (fun value => Sequence each (parts value)) values written ↔
      Sequence each (values.flatMap parts) written := by
  induction values generalizing written with
  | nil => rw [List.flatMap_nil, sequence_nil_iff, sequence_nil_iff]
  | cons value rest ih =>
      rw [List.flatMap_cons, sequence_cons_iff, sequence_append_iff]
      constructor
      · intro ⟨front, back, split, meant, others⟩
        exact ⟨front, back, split, meant, (ih back).mp others⟩
      · intro ⟨front, back, split, meant, others⟩
        exact ⟨front, back, split, meant, (ih back).mpr others⟩

end Grammar

namespace Reader

open Grammar

variable {α β γ : Type} {bytes : Bytes} {start : Nat}

/-- A reader succeeds, from a position of a buffer on, with exactly the values
of a grammar, and ends behind the bytes that write them. -/
def Exact (bytes : Bytes) (start : Nat) (reader : Reader α)
    (grammar : Grammar α) : Prop :=
  ∀ position, start ≤ position → ∀ value next,
    reader bytes position = .ok (value, next) ↔
      ∃ written, written <+: bytes.toList.drop position ∧
        next = position + written.length ∧ grammar value written

theorem Exact.congr {reader : Reader α} {grammar other : Grammar α}
    (exact : Exact bytes start reader grammar)
    (same : ∀ value written, grammar value written ↔ other value written) :
    Exact bytes start reader other := by
  intro position behind value next
  rw [exact position behind value next]
  constructor
  · intro ⟨written, stands, ends, meant⟩
    exact ⟨written, stands, ends, (same value written).mp meant⟩
  · intro ⟨written, stands, ends, meant⟩
    exact ⟨written, stands, ends, (same value written).mpr meant⟩

theorem exact_succeed (value : α) :
    Exact bytes start (succeed value) (empty value) := by
  intro position behind found next
  constructor
  · intro read
    cases read
    exact ⟨[], List.nil_prefix, rfl, rfl, rfl⟩
  · intro ⟨written, stands, ends, same, nothing⟩
    subst same nothing ends
    rfl

theorem exact_stop (fault : Fault) :
    Exact bytes start (stop fault : Reader α) (fun _ _ => False) := by
  intro position behind found next
  constructor
  · intro read
    cases read
  · intro ⟨written, stands, ends, impossible⟩
    exact impossible.elim

theorem append_prefix_drop_iff (front back all : List UInt8) (position : Nat) :
    front ++ back <+: all.drop position ↔
      front <+: all.drop position ∧
        back <+: all.drop (position + front.length) := by
  constructor
  · intro ⟨rest, whole⟩
    have behind : all.drop (position + front.length) = back ++ rest := by
      rw [← List.drop_drop, ← whole, List.append_assoc, List.drop_left]
    refine ⟨⟨back ++ rest, ?_⟩, ⟨rest, behind.symm⟩⟩
    rw [← List.append_assoc, whole]
  · intro ⟨⟨later, first⟩, ⟨rest, second⟩⟩
    have middle : all.drop (position + front.length) = later := by
      rw [← List.drop_drop, ← first, List.drop_left]
    refine ⟨rest, ?_⟩
    rw [List.append_assoc, second, middle, first]

theorem Exact.andThen {first : Reader α} {second : α → Reader β}
    {firstGrammar : Grammar α} {secondGrammar : α → Grammar β}
    (firstExact : Exact bytes start first firstGrammar)
    (secondExact : ∀ value,
      Exact bytes start (second value) (secondGrammar value)) :
    Exact bytes start (andThen first second)
      (join firstGrammar secondGrammar) := by
  intro position behind found last
  rw [andThen_eq_ok_iff]
  constructor
  · intro ⟨value, middle, firstRead, secondRead⟩
    obtain ⟨front, frontStands, toMiddle, frontMeant⟩ :=
      (firstExact position behind value middle).mp firstRead
    obtain ⟨back, backStands, toLast, backMeant⟩ :=
      (secondExact value middle (by omega) found last).mp secondRead
    subst toMiddle
    refine ⟨front ++ back, ?_, ?_, value, front, back, rfl, frontMeant,
      backMeant⟩
    · exact (append_prefix_drop_iff front back _ position).mpr
        ⟨frontStands, backStands⟩
    · rw [List.length_append]
      omega
  · intro ⟨written, stands, toLast, value, front, back, split, frontMeant,
      backMeant⟩
    subst split
    obtain ⟨frontStands, backStands⟩ :=
      (append_prefix_drop_iff front back _ position).mp stands
    refine ⟨value, position + front.length, ?_, ?_⟩
    · exact (firstExact position behind value _).mpr
        ⟨front, frontStands, rfl, frontMeant⟩
    · refine (secondExact value _ (by omega) found last).mpr
        ⟨back, backStands, ?_, backMeant⟩
      rw [List.length_append] at toLast
      omega

theorem Exact.convert {reader : Reader α} {grammar : Grammar α}
    (exact : Exact bytes start reader grammar) (wrap : β → γ)
    (convert : α → β) (back : β → α)
    (convertBack : ∀ value, convert (back value) = value)
    (backConvert : ∀ value written, grammar value written →
      back (convert value) = value) :
    Exact bytes start
      (Reader.andThen reader fun value => succeed (wrap (convert value)))
      (fun found written =>
        ∃ value, found = wrap value ∧ grammar (back value) written) := by
  refine (exact.andThen fun value =>
    exact_succeed (wrap (convert value))).congr ?_
  intro found written
  constructor
  · intro ⟨value, front, rest, split, meant, same, nothing⟩
    subst nothing
    rw [List.append_nil] at split
    subst split
    refine ⟨convert value, same, ?_⟩
    rw [backConvert value written meant]
    exact meant
  · intro ⟨value, same, meant⟩
    refine ⟨back value, written, [], (List.append_nil written).symm, meant,
      ?_, rfl⟩
    rw [convertBack]
    exact same

theorem Exact.replicate {reader : Reader α} {grammar : Grammar α}
    (exact : Exact bytes start reader grammar) (count : Nat) :
    Exact bytes start (replicate reader count) (repeated grammar count) := by
  induction count with
  | zero =>
      rw [replicate_zero]
      refine (exact_succeed []).congr ?_
      intro found written
      constructor
      · intro ⟨same, nothing⟩
        subst same nothing
        exact ⟨rfl, Sequence.nil⟩
      · intro ⟨counted, sequence⟩
        cases sequence with
        | nil => exact ⟨rfl, rfl⟩
        | cons first rest => cases counted
  | succ count ih =>
      rw [replicate_succ]
      refine (exact.andThen fun value =>
        ih.andThen fun values => exact_succeed (value :: values)).congr ?_
      intro found written
      constructor
      · intro ⟨value, front, middle, split, meant, values, back, last,
          splitAgain, ⟨counted, sequence⟩, same, nothing⟩
        subst same nothing splitAgain split
        rw [List.append_nil]
        exact ⟨congrArg (· + 1) counted, Sequence.cons meant sequence⟩
      · intro ⟨counted, sequence⟩
        cases sequence with
        | nil => cases counted
        | @cons value values front back meant rest =>
            refine ⟨value, front, back, rfl, meant, values, back, [],
              (List.append_nil back).symm, ⟨?_, rest⟩, rfl, rfl⟩
            exact Nat.succ.inj counted

/-! ### Bytes and fixed-width numbers -/

theorem prefix_drop_inside {bytes : Bytes} {position : Nat}
    {written : List UInt8} (stands : written <+: bytes.toList.drop position)
    (positive : 0 < written.length) :
    position + written.length ≤ bytes.size := by
  have room := stands.length_le
  have size : bytes.toList.length = bytes.size := Array.length_toList
  rw [List.length_drop, size] at room
  omega

theorem prefix_drop_iff_window {length : Nat} (positive : 0 < length)
    (bytes : Bytes) (position : Nat) (written : List UInt8) :
    (written <+: bytes.toList.drop position ∧ written.length = length) ↔
      position + length ≤ bytes.size ∧
        written = bytes.window position length := by
  rw [Bytes.window_eq]
  constructor
  · intro ⟨stands, counted⟩
    subst counted
    refine ⟨prefix_drop_inside stands positive, ?_⟩
    exact List.prefix_iff_eq_take.mp stands
  · intro ⟨inside, same⟩
    subst same
    refine ⟨List.take_prefix _ _, ?_⟩
    rw [List.length_take, List.length_drop, Array.length_toList]
    omega

theorem exact_take {length : Nat} (positive : 0 < length) :
    Exact bytes start (take length)
      (fun found written => found = written ∧ written.length = length) := by
  intro position behind found next
  unfold take
  constructor
  · intro read
    split at read
    · rename_i inside
      cases read
      obtain ⟨stands, counted⟩ :=
        (prefix_drop_iff_window positive bytes position _).mpr ⟨inside, rfl⟩
      exact ⟨_, stands, by rw [counted], rfl, counted⟩
    · cases read
  · intro ⟨written, stands, ends, same, counted⟩
    obtain ⟨inside, window⟩ :=
      (prefix_drop_iff_window positive bytes position written).mp
        ⟨stands, counted⟩
    rw [if_pos inside, same, ends, counted, ← window]

private theorem NumberWidth.size_pos (width : NumberWidth) :
    0 < width.size := by
  cases width <;> decide

theorem exact_fixedNumber (width : NumberWidth) :
    Exact bytes start (fixedNumber width)
      (fun found written => found = LittleEndian.number written ∧
        written.length = width.size) := by
  intro position behind found next
  have positive := NumberWidth.size_pos width
  unfold fixedNumber
  constructor
  · intro read
    split at read
    · rename_i inside
      cases read
      obtain ⟨stands, counted⟩ :=
        (prefix_drop_iff_window positive bytes position _).mpr ⟨inside, rfl⟩
      exact ⟨_, stands, by rw [counted], rfl, counted⟩
    · cases read
  · intro ⟨written, stands, ends, same, counted⟩
    obtain ⟨inside, window⟩ :=
      (prefix_drop_iff_window positive bytes position written).mp
        ⟨stands, counted⟩
    rw [if_pos inside, same, ends, counted, ← window]

theorem number_lt_of_length {written : List UInt8} {size : Nat}
    (counted : written.length = size) :
    LittleEndian.number written < 256 ^ size := by
  rw [← counted]
  exact LittleEndian.number_lt written

theorem exact_u1 :
    Exact bytes start u1 (fun found written => written = [found]) := by
  refine ((exact_fixedNumber .one).convert (fun value => value)
    UInt8.ofNat UInt8.toNat ?_ ?_).congr ?_
  · intro value
    exact UInt8.ofNat_toNat
  · intro value written ⟨same, counted⟩
    have bound := number_lt_of_length counted
    rw [← same] at bound
    exact UInt8.toNat_ofNat_of_lt' bound
  · intro found written
    constructor
    · intro ⟨value, same, meant, counted⟩
      subst same
      obtain ⟨byte, only⟩ := List.length_eq_one_iff.mp counted
      subst only
      rw [LittleEndian.number, LittleEndian.number, Nat.mul_zero,
        Nat.add_zero] at meant
      rw [UInt8.toNat_inj.mp meant]
    · intro only
      subst only
      exact ⟨found, rfl, by simp [LittleEndian.number], rfl⟩

theorem exact_u2 :
    Exact bytes start u2
      (fun found written => found.toNat = LittleEndian.number written ∧
        written.length = 2) := by
  refine ((exact_fixedNumber .two).convert (fun value => value)
    UInt16.ofNat UInt16.toNat ?_ ?_).congr ?_
  · intro value
    exact UInt16.ofNat_toNat
  · intro value written ⟨same, counted⟩
    have bound := number_lt_of_length counted
    rw [← same] at bound
    exact UInt16.toNat_ofNat_of_lt' bound
  · intro found written
    constructor
    · intro ⟨value, same, meant⟩
      rw [same]
      exact meant
    · intro meant
      exact ⟨found, rfl, meant⟩

theorem exact_u4 :
    Exact bytes start u4
      (fun found written => found.toNat = LittleEndian.number written ∧
        written.length = 4) := by
  refine ((exact_fixedNumber .four).convert (fun value => value)
    UInt32.ofNat UInt32.toNat ?_ ?_).congr ?_
  · intro value
    exact UInt32.ofNat_toNat
  · intro value written ⟨same, counted⟩
    have bound := number_lt_of_length counted
    rw [← same] at bound
    exact UInt32.toNat_ofNat_of_lt' bound
  · intro found written
    constructor
    · intro ⟨value, same, meant⟩
      rw [same]
      exact meant
    · intro meant
      exact ⟨found, rfl, meant⟩

end Reader
end DexCensus
