/-
Readers over a whole segment.

A reader takes the buffer and a position and returns a value with the position
after it, or the fault that stopped it.  Positions are absolute, so a reader
can be started anywhere, also behind the end.

This file holds the readers of bytes and fixed-width numbers and the way
readers are joined and repeated.  Variable-length numbers have a file of their
own.
-/

import DexCensus.Fault
import DexCensus.LittleEndian

namespace DexCensus

abbrev Bytes : Type := Array UInt8

/-- The bytes from `start` on, `length` of them or as many as there are. -/
def Bytes.window (bytes : Bytes) (start length : Nat) : List UInt8 :=
  (bytes.extract start (start + length)).toList

theorem Bytes.window_eq (bytes : Bytes) (start length : Nat) :
    bytes.window start length = (bytes.toList.drop start).take length := by
  simp [Bytes.window, Array.toList_extract]

theorem Bytes.length_window (bytes : Bytes) {start length : Nat}
    (inside : start + length ≤ bytes.size) :
    (bytes.window start length).length = length := by
  rw [Bytes.window_eq, List.length_take, List.length_drop, Array.length_toList]
  omega

def Reader (α : Type) : Type :=
  Bytes → Nat → Except Fault (α × Nat)

namespace Reader

variable {α β : Type}

def succeed (value : α) : Reader α :=
  fun _ position => .ok (value, position)

def stop (fault : Fault) : Reader α :=
  fun _ _ => .error fault

/-- One reader after another, the second chosen by what the first one read. -/
def andThen (first : Reader α) (second : α → Reader β) : Reader β :=
  fun bytes position =>
    match first bytes position with
    | .ok (value, next) => second value bytes next
    | .error fault => .error fault

instance : Monad Reader where
  pure := succeed
  bind := andThen

theorem bind_eq (first : Reader α) (second : α → Reader β) :
    first >>= second = andThen first second :=
  rfl

theorem andThen_eq_ok_iff {first : Reader α} {second : α → Reader β}
    {bytes : Bytes} {start last : Nat} {result : β} :
    andThen first second bytes start = .ok (result, last) ↔
      ∃ value middle, first bytes start = .ok (value, middle) ∧
        second value bytes middle = .ok (result, last) := by
  unfold andThen
  cases first bytes start with
  | error fault =>
      constructor
      · intro impossible
        cases impossible
      · rintro ⟨value, middle, impossible, _⟩
        cases impossible
  | ok read =>
      rcases read with ⟨value, middle⟩
      constructor
      · intro succeeded
        exact ⟨value, middle, rfl, succeeded⟩
      · rintro ⟨otherValue, otherMiddle, same, succeeded⟩
        cases same
        exact succeeded

def position : Reader Nat :=
  fun _ position => .ok (position, position)

def bufferSize : Reader Nat :=
  fun bytes position => .ok (bytes.size, position)

def valueAt (reader : Reader α) (bytes : Bytes) (position : Nat) :
    Except Fault α :=
  match reader bytes position with
  | .ok (value, _) => .ok value
  | .error fault => .error fault

theorem valueAt_eq_ok_iff {reader : Reader α} {bytes : Bytes} {start : Nat}
    {value : α} :
    reader.valueAt bytes start = .ok value ↔
      ∃ next, reader bytes start = .ok (value, next) := by
  unfold valueAt
  cases reader bytes start with
  | error fault =>
      constructor
      · intro impossible
        cases impossible
      · rintro ⟨next, impossible⟩
        cases impossible
  | ok read =>
      rcases read with ⟨found, next⟩
      constructor
      · intro same
        cases same
        exact ⟨next, rfl⟩
      · rintro ⟨otherNext, same⟩
        cases same
        rfl

/-- `count` more values after those in `done`, the last one first. -/
def replicateOnto (reader : Reader α) :
    Nat → List α → Bytes → Nat → Except Fault (List α × Nat)
  | 0, done, _, position => .ok (done.reverse, position)
  | count + 1, done, bytes, position =>
      match reader bytes position with
      | .ok (value, next) =>
          replicateOnto reader count (value :: done) bytes next
      | .error fault => .error fault

def replicate (reader : Reader α) (count : Nat) : Reader (List α) :=
  fun bytes position => replicateOnto reader count [] bytes position

theorem replicateOnto_eq (reader : Reader α) (count : Nat) (done : List α)
    (bytes : Bytes) (position : Nat) :
    replicateOnto reader count done bytes position =
      andThen (replicate reader count)
        (fun values => succeed (done.reverse ++ values)) bytes position := by
  induction count generalizing done position with
  | zero => simp [replicate, replicateOnto, andThen, succeed]
  | succ count ih =>
      simp only [replicate, replicateOnto, andThen]
      cases reader bytes position with
      | error fault => rfl
      | ok result =>
          rcases result with ⟨value, next⟩
          simp only
          rw [ih (value :: done), ih [value]]
          simp only [andThen]
          cases replicate reader count bytes next with
          | error fault => rfl
          | ok rest => simp [succeed]

@[simp] theorem replicate_zero (reader : Reader α) :
    replicate reader 0 = succeed [] :=
  rfl

theorem replicate_succ (reader : Reader α) (count : Nat) :
    replicate reader (count + 1) =
      andThen reader fun value =>
        andThen (replicate reader count) fun values =>
          succeed (value :: values) := by
  funext bytes position
  simp only [replicate, replicateOnto, andThen]
  cases reader bytes position with
  | error fault => rfl
  | ok result =>
      rcases result with ⟨value, next⟩
      simp only
      rw [replicateOnto_eq reader count [value]]
      rfl

/-! ### Bytes and fixed-width numbers -/

def take (length : Nat) : Reader (List UInt8) :=
  fun bytes position =>
    if position + length ≤ bytes.size then
      .ok (bytes.window position length, position + length)
    else .error (.bytesPastEnd length position)

def fixedNumber (width : NumberWidth) : Reader Nat :=
  fun bytes position =>
    if position + width.size ≤ bytes.size then
      .ok (LittleEndian.number (bytes.window position width.size),
        position + width.size)
    else .error (.numberPastEnd width position)

def u1 : Reader UInt8 :=
  andThen (fixedNumber .one) fun value => succeed (UInt8.ofNat value)

def u2 : Reader UInt16 :=
  andThen (fixedNumber .two) fun value => succeed (UInt16.ofNat value)

def u4 : Reader UInt32 :=
  andThen (fixedNumber .four) fun value => succeed (UInt32.ofNat value)

/-- The bytes before the next zero byte, which is read too; `done` holds the
bytes before `position`, the last one first. -/
def untilZeroOnto (bytes : Bytes) (position : Nat) (done : List UInt8) :
    Except Fault (List UInt8 × Nat) :=
  if inside : position < bytes.size then
    if bytes[position] = 0 then .ok (done.reverse, position + 1)
    else untilZeroOnto bytes (position + 1) (bytes[position] :: done)
  else .error (.numberPastEnd .one position)
termination_by bytes.size - position

def untilZero : Reader (List UInt8) :=
  fun bytes position => untilZeroOnto bytes position []

end Reader
end DexCensus
