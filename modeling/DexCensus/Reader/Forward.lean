/-
Readers that never move back.

The position after a successful read is not before the position it started
at.  The property holds of the readers of bytes and numbers and passes through
joining and repetition, so it holds of every reader built from them.

Two readers that agree from some position on can therefore stand for each
other inside a forward reader that starts there.
-/

import DexCensus.Uleb128

namespace DexCensus
namespace Reader

variable {α β : Type}

/-- A successful read ends at or behind its start. -/
def Forward (reader : Reader α) : Prop :=
  ∀ bytes start value next,
    reader bytes start = .ok (value, next) → start ≤ next

theorem forward_succeed (value : α) : Forward (succeed value) := by
  intro bytes start found next read
  cases read
  exact Nat.le_refl start

theorem forward_stop (fault : Fault) : Forward (stop fault : Reader α) := by
  intro bytes start found next read
  cases read

theorem forward_position : Forward position := by
  intro bytes start found next read
  cases read
  exact Nat.le_refl start

theorem forward_take (length : Nat) : Forward (take length) := by
  intro bytes start found next read
  unfold take at read
  split at read
  · cases read
    exact Nat.le_add_right start length
  · cases read

theorem fixedNumber_next {width : NumberWidth} {bytes : Bytes}
    {start value next : Nat}
    (read : fixedNumber width bytes start = .ok (value, next)) :
    next = start + width.size ∧ next ≤ bytes.size := by
  unfold fixedNumber at read
  split at read
  · rename_i inside
    cases read
    exact ⟨rfl, inside⟩
  · cases read

theorem forward_fixedNumber (width : NumberWidth) :
    Forward (fixedNumber width) := by
  intro bytes start found next read
  have ends := fixedNumber_next read
  omega

theorem forward_andThen {first : Reader α} {second : α → Reader β}
    (firstForward : Forward first)
    (secondForward : ∀ value, Forward (second value)) :
    Forward (andThen first second) := by
  intro bytes start found next read
  obtain ⟨value, middle, firstRead, secondRead⟩ := andThen_eq_ok_iff.mp read
  have toMiddle := firstForward bytes start value middle firstRead
  have toNext := secondForward value bytes middle found next secondRead
  exact Nat.le_trans toMiddle toNext

theorem forward_u1 : Forward u1 :=
  forward_andThen (forward_fixedNumber .one) fun _ => forward_succeed _

theorem forward_uleb128 : Forward uleb128 := by
  intro bytes start found next read
  unfold uleb128 at read
  split at read
  · split at read
    · cases read
      exact Nat.le_add_right start _
    · cases read
  · cases read

theorem forward_count : Forward count :=
  forward_andThen forward_uleb128 fun _ => forward_succeed _

theorem forward_replicate {reader : Reader α} (forward : Forward reader)
    (count : Nat) : Forward (replicate reader count) := by
  induction count with
  | zero =>
      rw [replicate_zero]
      exact forward_succeed []
  | succ count ih =>
      rw [replicate_succ]
      exact forward_andThen forward fun _ =>
        forward_andThen ih fun _ => forward_succeed _

/-- Two readers do the same from a position of a buffer on. -/
def AgreeFrom (bytes : Bytes) (start : Nat) (left right : Reader α) : Prop :=
  ∀ next, start ≤ next → left bytes next = right bytes next

theorem AgreeFrom.refl (bytes : Bytes) (start : Nat) (reader : Reader α) :
    AgreeFrom bytes start reader reader :=
  fun _ _ => rfl

theorem AgreeFrom.andThen {bytes : Bytes} {start : Nat}
    {left right : Reader α} {leftNext rightNext : α → Reader β}
    (forward : Forward left) (agree : AgreeFrom bytes start left right)
    (agreeNext : ∀ value,
      AgreeFrom bytes start (leftNext value) (rightNext value)) :
    AgreeFrom bytes start (andThen left leftNext)
      (andThen right rightNext) := by
  intro next behind
  unfold Reader.andThen
  rw [← agree next behind]
  cases read : left bytes next with
  | error fault => rfl
  | ok result =>
      rcases result with ⟨value, middle⟩
      have moved := forward bytes next value middle read
      exact agreeNext value middle (Nat.le_trans behind moved)

theorem AgreeFrom.replicate {bytes : Bytes} {start : Nat}
    {left right : Reader α} (forward : Forward left)
    (agree : AgreeFrom bytes start left right) (count : Nat) :
    AgreeFrom bytes start (replicate left count) (replicate right count) := by
  induction count with
  | zero => exact AgreeFrom.refl bytes start _
  | succ count ih =>
      rw [replicate_succ, replicate_succ]
      exact AgreeFrom.andThen forward agree fun value =>
        AgreeFrom.andThen (forward_replicate forward count) ih fun values =>
          AgreeFrom.refl bytes start _

end Reader
end DexCensus
