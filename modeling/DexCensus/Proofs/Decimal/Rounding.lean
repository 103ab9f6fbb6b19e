/-
Which numbers the shortest digits stand for.

The magnitudes of a format lie side by side: the interval of the numbers that
round to one ends where the interval of the next one starts, and of the two
only the one with the even mantissa has the common end.  So a number rounds to
one magnitude at most.  The digits of a magnitude stand for a number that
rounds to it, and therefore no other magnitude has digits of the same value.
-/

import DexCensus.Decimal.Shortest
import Mathlib.Algebra.Order.Field.Power
import Mathlib.Tactic.Positivity
import Mathlib.Tactic.Ring

namespace DexCensus

attribute [local instance (high)] instPowNat

namespace Decimal

namespace Magnitude

variable (magnitude : Magnitude)

def lowCount : Nat :=
  4 * magnitude.mantissa - if magnitude.isNarrow then 1 else 2

def highCount : Nat :=
  4 * magnitude.mantissa + 2

/-- A number rounds to a magnitude: it lies between the ends of the interval,
or at one of them if the mantissa is even. -/
structure Holds (number : ℚ) : Prop where
  low : magnitude.lowCount * (2 : ℚ) ^ (magnitude.exponent - 2) ≤ number
  high : number ≤ magnitude.highCount * (2 : ℚ) ^ (magnitude.exponent - 2)
  ends : number = magnitude.lowCount * (2 : ℚ) ^ (magnitude.exponent - 2) ∨
    number = magnitude.highCount * (2 : ℚ) ^ (magnitude.exponent - 2) →
      magnitude.mantissa % 2 = 0

end Magnitude

section Ladder

variable (width : Nat)

def mantissaAt (bits : Nat) : Nat :=
  if bits / 2 ^ width = 0 then bits % 2 ^ width
  else 2 ^ width + bits % 2 ^ width

def lowAt (bits : Nat) : Nat :=
  (4 * mantissaAt width bits -
    if bits % 2 ^ width = 0 && 1 < bits / 2 ^ width then 1 else 2) *
      2 ^ (bits / 2 ^ width - 1)

def highAt (bits : Nat) : Nat :=
  (4 * mantissaAt width bits + 2) * 2 ^ (bits / 2 ^ width - 1)

/-- The next interval starts where one ends: within a power of two, at the
first power of two, and at each later one, where the places get wider. -/
theorem lowAt_succ (bits : Nat) :
    lowAt width (bits + 1) = highAt width bits := by
  have positive : 0 < 2 ^ width := Nat.two_pow_pos width
  have split := Nat.div_add_mod bits (2 ^ width)
  have small := Nat.mod_lt bits positive
  unfold lowAt highAt mantissaAt
  generalize 2 ^ width = unit at *
  generalize bits / unit = stored at *
  generalize bits % unit = fraction at *
  by_cases within : fraction + 1 < unit
  · have div : (bits + 1) / unit = stored := by
      rw [← split, Nat.add_assoc, Nat.mul_add_div positive,
        Nat.div_eq_of_lt within, Nat.add_zero]
    have mod : (bits + 1) % unit = fraction + 1 := by
      rw [← split, Nat.add_assoc, Nat.mul_add_mod, Nat.mod_eq_of_lt within]
    rw [div, mod]
    congr 1
    by_cases least : stored = 0 <;> simp [least] <;> omega
  · have last : unit = fraction + 1 := by omega
    have div : (bits + 1) / unit = stored + 1 := by
      rw [← split, Nat.add_assoc, ← last, ← Nat.mul_succ,
        Nat.mul_div_cancel_left _ positive]
    have mod : (bits + 1) % unit = 0 := by
      rw [← split, Nat.add_assoc, ← last, ← Nat.mul_succ,
        Nat.mul_mod_right]
    rw [div, mod]
    cases stored with
    | zero =>
        simp
        omega
    | succ before =>
        simp
        rw [Nat.pow_succ, Nat.mul_comm (2 ^ before) 2, ← Nat.mul_assoc]
        congr 1
        omega

theorem lowAt_lt_highAt (bits : Nat) :
    lowAt width bits < highAt width bits := by
  unfold lowAt highAt
  exact Nat.mul_lt_mul_of_pos_right (by omega) (Nat.two_pow_pos _)

private theorem highAt_le_lowAt {first second : Nat} (before : first < second) :
    highAt width first ≤ lowAt width second := by
  induction second, before using Nat.le_induction with
  | base => exact (lowAt_succ width first).ge
  | succ second _ ih =>
      rw [lowAt_succ]
      exact ih.trans (lowAt_lt_highAt width second).le

private theorem mantissaAt_mod_two {width : Nat} (wide : 0 < width)
    (bits : Nat) :
    mantissaAt width bits % 2 = bits % 2 := by
  obtain ⟨half, isEven⟩ : 2 ∣ 2 ^ width := dvd_pow_self 2 wide.ne'
  have split := Nat.div_add_mod bits (2 ^ width)
  rw [isEven, Nat.mul_assoc] at split
  unfold mantissaAt
  rw [isEven]
  split <;> omega

end Ladder

namespace BinaryFormat

variable (format : BinaryFormat)

def unsigned (bits : Nat) : Nat :=
  bits % 2 ^ (format.fractionBits + format.exponentBits)

private theorem fraction_eq (bits : Nat) :
    format.fraction bits =
      format.unsigned bits % 2 ^ format.fractionBits := by
  unfold fraction unsigned
  rw [Nat.pow_add, Nat.mod_mul_right_mod]

theorem storedExponent_eq (bits : Nat) :
    format.storedExponent bits =
      format.unsigned bits / 2 ^ format.fractionBits := by
  unfold storedExponent unsigned
  rw [Nat.pow_add, Nat.mod_mul_right_div_self]

variable {format} {bits : Nat} {magnitude : Magnitude}

theorem magnitude?_eq_some (finite : format.magnitude? bits = some magnitude) :
    magnitude = {
      mantissa := mantissaAt format.fractionBits (format.unsigned bits)
      exponent := format.leastExponent +
        (format.unsigned bits / 2 ^ format.fractionBits - 1 : Nat)
      isNarrow := format.unsigned bits % 2 ^ format.fractionBits = 0 &&
        1 < format.unsigned bits / 2 ^ format.fractionBits } := by
  unfold magnitude? at finite
  rw [format.storedExponent_eq, format.fraction_eq] at finite
  unfold mantissaAt
  dsimp only at finite
  split at finite
  · cases finite
  · split at finite
    · rename_i least
      cases finite
      simp [least]
    · rename_i notLeast
      cases finite
      simp [notLeast]

private theorem ends_of_magnitude?
    (finite : format.magnitude? bits = some magnitude) :
    magnitude.lowCount * (2 : ℚ) ^ (magnitude.exponent - 2) =
      lowAt format.fractionBits (format.unsigned bits) *
        2 ^ (format.leastExponent - 2) ∧
    magnitude.highCount * (2 : ℚ) ^ (magnitude.exponent - 2) =
      highAt format.fractionBits (format.unsigned bits) *
        2 ^ (format.leastExponent - 2) := by
  have scale (count place : Nat) :
      (count : ℚ) * 2 ^ (format.leastExponent + place - 2) =
        (count * 2 ^ place : Nat) * 2 ^ (format.leastExponent - 2) := by
    have shifted : format.leastExponent + place - 2 =
        place + (format.leastExponent - 2) := by
      omega
    rw [shifted, zpow_add₀ (by norm_num), zpow_natCast, Nat.cast_mul,
      Nat.cast_pow, Nat.cast_ofNat, mul_assoc]
  rw [magnitude?_eq_some finite]
  exact ⟨scale _ _, scale _ _⟩

private theorem not_unsigned_lt (wide : 0 < format.fractionBits) {other : Nat}
    {otherMagnitude : Magnitude} {number : ℚ}
    (finite : format.magnitude? bits = some magnitude)
    (otherFinite : format.magnitude? other = some otherMagnitude)
    (holds : magnitude.Holds number) (otherHolds : otherMagnitude.Holds number)
    : ¬ format.unsigned bits < format.unsigned other := by
  intro before
  obtain ⟨_, highEnd⟩ := ends_of_magnitude? finite
  obtain ⟨lowEnd, _⟩ := ends_of_magnitude? otherFinite
  have unit : (0 : ℚ) < 2 ^ (format.leastExponent - 2) := by positivity
  have ladder := highAt_le_lowAt format.fractionBits before
  have scaled : magnitude.highCount * (2 : ℚ) ^ (magnitude.exponent - 2) ≤
      otherMagnitude.lowCount * (2 : ℚ) ^ (otherMagnitude.exponent - 2) := by
    rw [highEnd, lowEnd]
    exact mul_le_mul_of_nonneg_right (Nat.cast_le.mpr ladder) unit.le
  -- Both intervals reach the number, so it is their common end.
  have atHigh := le_antisymm holds.high (scaled.trans otherHolds.low)
  have atLow := le_antisymm (holds.high.trans scaled) otherHolds.low
  have sameEnd : highAt format.fractionBits (format.unsigned bits) =
      lowAt format.fractionBits (format.unsigned other) := by
    have equal := atHigh.symm.trans atLow
    rw [highEnd, lowEnd] at equal
    exact Nat.cast_injective (mul_right_cancel₀ unit.ne' equal)
  have adjacent : format.unsigned other = format.unsigned bits + 1 := by
    by_contra apart
    have further : format.unsigned bits + 1 < format.unsigned other := by
      omega
    have beyond := highAt_le_lowAt format.fractionBits further
    have grows := lowAt_lt_highAt format.fractionBits
      (format.unsigned bits + 1)
    rw [lowAt_succ] at grows
    omega
  have even := holds.ends (Or.inr atHigh)
  have otherEven := otherHolds.ends (Or.inl atLow)
  rw [magnitude?_eq_some finite] at even
  rw [magnitude?_eq_some otherFinite] at otherEven
  rw [mantissaAt_mod_two wide] at even otherEven
  omega

end BinaryFormat

/-! ### Neighbours on a grid -/

section Neighbour

variable (magnitude : Magnitude) (grid : Int)

/-- What a quarter of the last place and a step of the grid are scaled to. -/
def factor : Nat :=
  2 ^ (magnitude.exponent - 2).toNat * 10 ^ (-grid).toNat

def scale : Nat :=
  10 ^ grid.toNat * 2 ^ (-(magnitude.exponent - 2)).toNat

variable {magnitude grid}

private theorem zpow_mul_toNat_neg (base : Nat) (positive : 0 < base)
    (exponent : Int) :
    (base : ℚ) ^ exponent * (base ^ (-exponent).toNat : Nat) =
      (base ^ exponent.toNat : Nat) := by
  have nonzero : (base : ℚ) ≠ 0 := Nat.cast_ne_zero.mpr positive.ne'
  rw [Nat.cast_pow, Nat.cast_pow, ← zpow_natCast, ← zpow_natCast,
    ← zpow_add₀ nonzero]
  congr 1
  omega

private theorem scaled_le_iff (magnitude : Magnitude) (grid : Int)
    (count digits : Nat) :
    (count * factor magnitude grid ≤ digits * scale magnitude grid ↔
      count * (2 : ℚ) ^ (magnitude.exponent - 2) ≤
        digits * (10 : ℚ) ^ grid) ∧
    (digits * scale magnitude grid ≤ count * factor magnitude grid ↔
      digits * (10 : ℚ) ^ grid ≤
        count * (2 : ℚ) ^ (magnitude.exponent - 2)) := by
  have common : (0 : ℚ) <
      (2 ^ (-(magnitude.exponent - 2)).toNat * 10 ^ (-grid).toNat : Nat) :=
    Nat.cast_pos.mpr (Nat.mul_pos (Nat.two_pow_pos _)
      (Nat.pow_pos (by decide)))
  have twos := zpow_mul_toNat_neg 2 (by decide) (magnitude.exponent - 2)
  have tens := zpow_mul_toNat_neg 10 (by decide) grid
  have left : ((count * factor magnitude grid : Nat) : ℚ) =
      count * (2 : ℚ) ^ (magnitude.exponent - 2) *
        (2 ^ (-(magnitude.exponent - 2)).toNat * 10 ^ (-grid).toNat : Nat) := by
    unfold factor
    rw [Nat.cast_mul, Nat.cast_mul, Nat.cast_mul, ← twos]
    push_cast
    ring
  have right : ((digits * scale magnitude grid : Nat) : ℚ) =
      digits * (10 : ℚ) ^ grid *
        (2 ^ (-(magnitude.exponent - 2)).toNat * 10 ^ (-grid).toNat : Nat) := by
    unfold scale
    rw [Nat.cast_mul, Nat.cast_mul, Nat.cast_mul, ← tens]
    push_cast
    ring
  have asNumbers (first second : Nat) :
      first ≤ second ↔ (first : ℚ) ≤ second := Nat.cast_le.symm
  constructor
  · rw [asNumbers, left, right, mul_le_mul_iff_of_pos_right common]
  · rw [asNumbers, left, right, mul_le_mul_iff_of_pos_right common]

/-- The last multiple of the grid that is not above the magnitude. -/
def below (magnitude : Magnitude) (grid : Int) : Nat :=
  4 * magnitude.mantissa * factor magnitude grid / scale magnitude grid

def fitsBelow (magnitude : Magnitude) (grid : Int) : Bool :=
  magnitude.lowCount * factor magnitude grid <
      below magnitude grid * scale magnitude grid ||
    (magnitude.mantissa % 2 = 0 &&
      magnitude.lowCount * factor magnitude grid =
        below magnitude grid * scale magnitude grid)

def fitsAbove (magnitude : Magnitude) (grid : Int) : Bool :=
  (below magnitude grid + 1) * scale magnitude grid <
      magnitude.highCount * factor magnitude grid ||
    (magnitude.mantissa % 2 = 0 &&
      (below magnitude grid + 1) * scale magnitude grid =
        magnitude.highCount * factor magnitude grid)

theorem neighbour?_eq (magnitude : Magnitude) (grid : Int) :
    neighbour? magnitude grid =
      match fitsBelow magnitude grid, fitsAbove magnitude grid with
      | false, false => none
      | true, false => some (below magnitude grid)
      | false, true => some (below magnitude grid + 1)
      | true, true =>
          let down := 4 * magnitude.mantissa * factor magnitude grid -
            below magnitude grid * scale magnitude grid
          let up := (below magnitude grid + 1) * scale magnitude grid -
            4 * magnitude.mantissa * factor magnitude grid
          if down < up then some (below magnitude grid)
          else if up < down then some (below magnitude grid + 1)
          else if below magnitude grid % 2 = 0 then
            some (below magnitude grid)
          else some (below magnitude grid + 1) :=
  rfl

private theorem neighbour?_cases {digits : Nat}
    (found : neighbour? magnitude grid = some digits) :
    (digits = below magnitude grid ∧ fitsBelow magnitude grid = true) ∨
    (digits = below magnitude grid + 1 ∧
      fitsAbove magnitude grid = true) := by
  rw [neighbour?_eq] at found
  cases low : fitsBelow magnitude grid <;>
    cases high : fitsAbove magnitude grid <;>
    simp only [low, high] at found
  · cases found
  · exact Or.inr ⟨(Option.some.inj found).symm, rfl⟩
  · exact Or.inl ⟨(Option.some.inj found).symm, rfl⟩
  · split at found
    · exact Or.inl ⟨(Option.some.inj found).symm, rfl⟩
    · split at found
      · exact Or.inr ⟨(Option.some.inj found).symm, rfl⟩
      · split at found
        · exact Or.inl ⟨(Option.some.inj found).symm, rfl⟩
        · exact Or.inr ⟨(Option.some.inj found).symm, rfl⟩

private theorem exists_neighbour? (fits : fitsAbove magnitude grid = true) :
    ∃ digits, neighbour? magnitude grid = some digits := by
  rw [neighbour?_eq, fits]
  cases fitsBelow magnitude grid with
  | false => exact ⟨_, rfl⟩
  | true =>
      dsimp only
      split_ifs
      all_goals exact ⟨_, rfl⟩

private theorem scale_pos (magnitude : Magnitude) (grid : Int) :
    0 < scale magnitude grid :=
  Nat.mul_pos (Nat.pow_pos (by decide)) (Nat.two_pow_pos _)

theorem factor_pos (magnitude : Magnitude) (grid : Int) :
    0 < factor magnitude grid :=
  Nat.mul_pos (Nat.two_pow_pos _) (Nat.pow_pos (by decide))

theorem below_le (magnitude : Magnitude) (grid : Int) :
    below magnitude grid * scale magnitude grid ≤
      4 * magnitude.mantissa * factor magnitude grid :=
  Nat.div_mul_le_self _ _

private theorem lt_below_succ (magnitude : Magnitude) (grid : Int) :
    4 * magnitude.mantissa * factor magnitude grid <
      (below magnitude grid + 1) * scale magnitude grid := by
  rw [Nat.mul_comm (below magnitude grid + 1)]
  exact Nat.lt_mul_div_succ _ (scale_pos magnitude grid)

private theorem scaled_of_neighbour? {digits : Nat}
    (found : neighbour? magnitude grid = some digits) :
    magnitude.lowCount * factor magnitude grid ≤
        digits * scale magnitude grid ∧
      digits * scale magnitude grid ≤
        magnitude.highCount * factor magnitude grid ∧
      (digits * scale magnitude grid =
          magnitude.lowCount * factor magnitude grid ∨
        digits * scale magnitude grid =
          magnitude.highCount * factor magnitude grid →
            magnitude.mantissa % 2 = 0) := by
  have lowSide : magnitude.lowCount * factor magnitude grid ≤
      4 * magnitude.mantissa * factor magnitude grid :=
    Nat.mul_le_mul_right _ (Nat.sub_le _ _)
  have highSide : 4 * magnitude.mantissa * factor magnitude grid <
      magnitude.highCount * factor magnitude grid :=
    Nat.mul_lt_mul_of_pos_right (Nat.lt_add_of_pos_right (by decide))
      (factor_pos magnitude grid)
  rcases neighbour?_cases found with ⟨rfl, fits⟩ | ⟨rfl, fits⟩
  · have atLeast := below_le magnitude grid
    simp only [fitsBelow, Bool.or_eq_true, Bool.and_eq_true,
      decide_eq_true_eq] at fits
    generalize below magnitude grid * scale magnitude grid = here at *
    omega
  · have atMost := lt_below_succ magnitude grid
    simp only [fitsAbove, Bool.or_eq_true, Bool.and_eq_true,
      decide_eq_true_eq] at fits
    generalize (below magnitude grid + 1) * scale magnitude grid = here at *
    omega

private theorem holds_of_neighbour? {digits : Nat}
    (found : neighbour? magnitude grid = some digits) :
    magnitude.Holds (digits * 10 ^ grid) := by
  obtain ⟨low, high, ends⟩ := scaled_of_neighbour? found
  have lowIff := scaled_le_iff magnitude grid magnitude.lowCount digits
  have highIff := scaled_le_iff magnitude grid magnitude.highCount digits
  constructor
  case low => exact lowIff.1.mp low
  case high => exact highIff.2.mp high
  case ends =>
    rintro (atLow | atHigh)
    · exact ends (Or.inl (le_antisymm (lowIff.2.mpr atLow.le) low))
    · exact ends (Or.inr (le_antisymm high (highIff.1.mpr atHigh.ge)))

private theorem exists_neighbour?_of_fine
    (fine : scale magnitude grid ≤ factor magnitude grid) :
    ∃ digits, neighbour? magnitude grid = some digits := by
  apply exists_neighbour?
  have atLeast := below_le magnitude grid
  have positive := factor_pos magnitude grid
  have fits : (below magnitude grid + 1) * scale magnitude grid <
      magnitude.highCount * factor magnitude grid := by
    rw [Nat.add_mul, Nat.one_mul, Magnitude.highCount, Nat.add_mul]
    omega
  simp [fitsAbove, fits]

end Neighbour

/-- Two powers that are at most as far apart as their exponents allow.  Ten
binary places are a little more than three decimal ones, and twenty-three a
little less than seven. -/
theorem ten_pow_le_two_pow {tens twos : Nat} (near : 10 * tens ≤ 3 * twos) :
    10 ^ tens ≤ 2 ^ twos := by
  apply (Nat.pow_le_pow_iff_left (n := 3) (by decide)).mp
  calc (10 ^ tens) ^ 3 = (10 ^ 3) ^ tens := by
        rw [← Nat.pow_mul, ← Nat.pow_mul, Nat.mul_comm]
    _ ≤ (2 ^ 10) ^ tens := Nat.pow_le_pow_left (by decide) tens
    _ = 2 ^ (10 * tens) := (Nat.pow_mul _ _ _).symm
    _ ≤ 2 ^ (twos * 3) := Nat.pow_le_pow_right (by decide) (by omega)
    _ = (2 ^ twos) ^ 3 := Nat.pow_mul _ _ _

private theorem two_pow_le_ten_pow {twos tens : Nat}
    (near : 7 * twos ≤ 23 * tens) :
    2 ^ twos ≤ 10 ^ tens := by
  apply (Nat.pow_le_pow_iff_left (n := 23) (by decide)).mp
  calc (2 ^ twos) ^ 23 = (2 ^ 23) ^ twos := by
        rw [← Nat.pow_mul, ← Nat.pow_mul, Nat.mul_comm]
    _ ≤ (10 ^ 7) ^ twos := Nat.pow_le_pow_left (by decide) twos
    _ = 10 ^ (7 * twos) := (Nat.pow_mul _ _ _).symm
    _ ≤ 10 ^ (tens * 23) := Nat.pow_le_pow_right (by decide) (by omega)
    _ = (10 ^ tens) ^ 23 := Nat.pow_mul _ _ _

/-- The mantissa has at most fifty-three binary digits and the exponent at most
four decimal ones, as in the formats of this library. -/
structure Magnitude.Moderate (magnitude : Magnitude) : Prop where
  mantissa : magnitude.mantissa < 2 ^ 53
  least : -1074 ≤ magnitude.exponent
  greatest : magnitude.exponent ≤ 2100

private theorem scale_le_factor {magnitude : Magnitude}
    (moderate : magnitude.Moderate) :
    scale magnitude (coarsestGrid magnitude - 23) ≤
      factor magnitude (coarsestGrid magnitude - 23) := by
  have length : Nat.log2 magnitude.mantissa ≤ 52 := by
    rcases Nat.eq_zero_or_pos magnitude.mantissa with zero | positive
    · simp [zero]
    · have few := (Nat.log2_lt positive.ne').mpr moderate.mantissa
      omega
  have least := moderate.least
  have greatest := moderate.greatest
  have near : 100000 * (coarsestGrid magnitude - 1) ≤
        (Nat.log2 magnitude.mantissa + 1 + magnitude.exponent) * 30103 ∧
      (Nat.log2 magnitude.mantissa + 1 + magnitude.exponent) * 30103 <
        100000 * coarsestGrid magnitude := by
    unfold coarsestGrid
    dsimp only
    rw [Int.fdiv_eq_ediv_of_nonneg _ (by decide : (0 : Int) ≤ 100000)]
    omega
  unfold scale factor
  generalize coarsestGrid magnitude = coarsest at *
  generalize magnitude.exponent = exponent at *
  generalize Nat.log2 magnitude.mantissa = bits at *
  rcases Int.le_total 0 (coarsest - 23) with coarse | fine
  · have noTwos : (-(exponent - 2)).toNat = 0 := by omega
    have noTens : (-(coarsest - 23)).toNat = 0 := by omega
    simp only [noTwos, noTens, Nat.pow_zero, Nat.mul_one]
    exact ten_pow_le_two_pow (by omega)
  · have noTens : (coarsest - 23).toNat = 0 := by omega
    rw [noTens, Nat.pow_zero, Nat.one_mul]
    rcases Int.le_total 0 (exponent - 2) with whole | part
    · have noTwos : (-(exponent - 2)).toNat = 0 := by omega
      rw [noTwos, Nat.pow_zero]
      exact Nat.mul_pos (Nat.two_pow_pos _) (Nat.pow_pos (by decide))
    · have noTwos : (exponent - 2).toNat = 0 := by omega
      rw [noTwos, Nat.pow_zero, Nat.one_mul]
      exact two_pow_le_ten_pow (by omega)

def Digits.value (number : Digits) : ℚ :=
  number.digits * 10 ^ number.exponent

private theorem holds_digitsFrom {magnitude : Magnitude} {steps : Nat} :
    ∀ {grid : Int} {depth : Nat}, depth < steps →
      (∃ digits, neighbour? magnitude (grid - depth) = some digits) →
      magnitude.Holds (digitsFrom magnitude steps grid).value := by
  induction steps with
  | zero =>
      intro grid depth inReach
      omega
  | succ steps ih =>
      intro grid depth inReach found
      rw [digitsFrom]
      cases here : neighbour? magnitude grid with
      | some digits => exact holds_of_neighbour? here
      | none =>
          cases depth with
          | zero =>
              obtain ⟨digits, found⟩ := found
              rw [Nat.cast_zero, Int.sub_zero, here] at found
              cases found
          | succ depth =>
              refine ih (Nat.lt_of_succ_lt_succ inReach) ?_
              have same : grid - 1 - depth = grid - (depth + 1 : Nat) := by
                omega
              rw [same]
              exact found

/-- The shortest digits of a magnitude stand for a number that rounds to it. -/
theorem holds_shortest {magnitude : Magnitude}
    (moderate : magnitude.Moderate) :
    magnitude.Holds (shortest magnitude).value := by
  unfold shortest
  split
  · rename_i zero
    have atZero : Digits.value { digits := 0, exponent := 0 } = 0 := by
      simp [Digits.value]
    have positive : (0 : ℚ) < 2 ^ (magnitude.exponent - 2) := by positivity
    rw [atZero]
    constructor
    case low => simp [Magnitude.lowCount, zero]
    case high => positivity
    case ends =>
      intro _
      rw [zero]
  · exact holds_digitsFrom (by decide : 23 < 24)
      (exists_neighbour?_of_fine (scale_le_factor moderate))

/-! ### Digits tell numbers apart -/

namespace BinaryFormat

variable {format : BinaryFormat} {bits : Nat} {magnitude : Magnitude}

structure Moderate (format : BinaryFormat) : Prop where
  wide : 0 < format.fractionBits
  fraction : format.fractionBits ≤ 52
  exponent : format.exponentBits ≤ 11

theorem moderate_single : single.Moderate :=
  ⟨by decide, by decide, by decide⟩

theorem moderate_double : double.Moderate :=
  ⟨by decide, by decide, by decide⟩

private theorem Moderate.of_magnitude? (moderate : format.Moderate)
    (finite : format.magnitude? bits = some magnitude) :
    magnitude.Moderate := by
  obtain ⟨_, fewBits, fewExponents⟩ := moderate
  have unit : 2 ^ format.fractionBits ≤ 2 ^ 52 :=
    Nat.pow_le_pow_right (by decide) fewBits
  have span : 2 ^ (format.exponentBits - 1) ≤ 2 ^ 10 :=
    Nat.pow_le_pow_right (by decide) (by omega)
  have spanPositive := Nat.two_pow_pos (format.exponentBits - 1)
  have stored : format.storedExponent bits < 2 ^ 11 :=
    (Nat.mod_lt _ (Nat.two_pow_pos _)).trans_le
      (Nat.pow_le_pow_right (by decide) fewExponents)
  have small : format.unsigned bits % 2 ^ format.fractionBits <
      2 ^ format.fractionBits := Nat.mod_lt _ (Nat.two_pow_pos _)
  rw [format.storedExponent_eq] at stored
  rw [magnitude?_eq_some finite]
  constructor
  case mantissa =>
    change mantissaAt _ _ < _
    unfold mantissaAt
    split <;> omega
  case least =>
    change _ ≤ format.leastExponent + _
    unfold leastExponent
    omega
  case greatest =>
    change format.leastExponent + _ ≤ _
    unfold leastExponent
    omega

theorem unsigned_eq_of_value_eq (moderate : format.Moderate) {other : Nat}
    {otherMagnitude : Magnitude}
    (finite : format.magnitude? bits = some magnitude)
    (otherFinite : format.magnitude? other = some otherMagnitude)
    (same : (shortest magnitude).value = (shortest otherMagnitude).value) :
    format.unsigned bits = format.unsigned other := by
  have holds := holds_shortest (moderate.of_magnitude? finite)
  have otherHolds := holds_shortest (moderate.of_magnitude? otherFinite)
  rw [← same] at otherHolds
  exact Nat.le_antisymm
    (Nat.le_of_not_lt
      (not_unsigned_lt moderate.wide otherFinite finite otherHolds holds))
    (Nat.le_of_not_lt
      (not_unsigned_lt moderate.wide finite otherFinite holds otherHolds))

end BinaryFormat

end Decimal
end DexCensus
