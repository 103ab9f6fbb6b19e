/-
The shortest decimal text of a binary floating-point number.

A finite number is m * 2 ^ q.  The reals that round to it form an interval
around it, which includes its ends if m is even.  Of the multiples of powers
of ten in that interval, one of the coarsest power is chosen; if there are two
neighbours of the number among them, the nearer one, and of two equally near
ones the even one.

All comparisons are between natural numbers, so the choice is exact.
-/

namespace DexCensus

-- Powers of numbers are those of the core library, whatever else is imported.
attribute [local instance (high)] instPowNat

namespace Decimal

/-- How a format packs a number: the stored bits of the fraction and the bits
of the exponent. -/
structure BinaryFormat where
  fractionBits : Nat
  exponentBits : Nat

def single : BinaryFormat :=
  { fractionBits := 23, exponentBits := 8 }

def double : BinaryFormat :=
  { fractionBits := 52, exponentBits := 11 }

/-- A finite number without its sign: `mantissa * 2 ^ exponent`.  The interval
below the number is half as wide as the one above it where `isNarrow` says so:
at a power of two that is not among the smallest numbers. -/
structure Magnitude where
  mantissa : Nat
  exponent : Int
  isNarrow : Bool
  deriving DecidableEq

namespace BinaryFormat

def fraction (format : BinaryFormat) (bits : Nat) : Nat :=
  bits % 2 ^ format.fractionBits

def storedExponent (format : BinaryFormat) (bits : Nat) : Nat :=
  bits / 2 ^ format.fractionBits % 2 ^ format.exponentBits

def isNegative (format : BinaryFormat) (bits : Nat) : Bool :=
  bits / 2 ^ (format.fractionBits + format.exponentBits) % 2 = 1

def leastExponent (format : BinaryFormat) : Int :=
  2 - (2 ^ (format.exponentBits - 1) : Nat) - (format.fractionBits : Nat)

def magnitude? (format : BinaryFormat) (bits : Nat) : Option Magnitude :=
  let fraction := format.fraction bits
  let stored := format.storedExponent bits
  if stored = 2 ^ format.exponentBits - 1 then none
  else if stored = 0 then
    some {
      mantissa := fraction
      exponent := format.leastExponent
      isNarrow := false }
  else
    some {
      mantissa := 2 ^ format.fractionBits + fraction
      exponent := format.leastExponent + (stored - 1 : Nat)
      isNarrow := fraction = 0 && 1 < stored }

end BinaryFormat

structure Digits where
  digits : Nat
  exponent : Int
  deriving DecidableEq

/-- The neighbour of a magnitude on the multiples of `10 ^ grid` that rounds
to the magnitude, if there is one.  All numbers are scaled by the same factor,
so that `scale` stands for `10 ^ grid` and `scaled count` for `count` quarters
of the last place of the magnitude. -/
def neighbour? (magnitude : Magnitude) (grid : Int) : Option Nat :=
  let quarter := magnitude.exponent - 2
  let factor := 2 ^ quarter.toNat * 10 ^ (-grid).toNat
  let scale := 10 ^ grid.toNat * 2 ^ (-quarter).toNat
  let scaled (count : Nat) := count * factor
  let value := scaled (4 * magnitude.mantissa)
  let low := scaled
    (4 * magnitude.mantissa - if magnitude.isNarrow then 1 else 2)
  let high := scaled (4 * magnitude.mantissa + 2)
  let closed := magnitude.mantissa % 2 = 0
  let below := value / scale
  let above := below + 1
  let belowFits := low < below * scale || (closed && low = below * scale)
  let aboveFits := above * scale < high || (closed && above * scale = high)
  match belowFits, aboveFits with
  | false, false => none
  | true, false => some below
  | false, true => some above
  | true, true =>
      let down := value - below * scale
      let up := above * scale - value
      if down < up then some below
      else if up < down then some above
      else if below % 2 = 0 then some below
      else some above

/-- The digits on the first grid, from `grid` on towards finer ones, that has
a fitting neighbour.  `steps` bounds how many grids are tried. -/
def digitsFrom (magnitude : Magnitude) : Nat → Int → Digits
  | 0, grid => { digits := 0, exponent := grid }
  | steps + 1, grid =>
      match neighbour? magnitude grid with
      | some digits => { digits := digits, exponent := grid }
      | none => digitsFrom magnitude steps (grid - 1)

/-- A power of ten above the magnitude, at most two places above its first
digit. -/
def coarsestGrid (magnitude : Magnitude) : Int :=
  let bits : Int := Nat.log2 magnitude.mantissa + 1 + magnitude.exponent
  Int.fdiv (bits * 30103) 100000 + 1

/-- The shortest digits of a magnitude.  Seventeen digits tell any two numbers
apart, so few grids have to be tried. -/
def shortest (magnitude : Magnitude) : Digits :=
  if magnitude.mantissa = 0 then { digits := 0, exponent := 0 }
  else digitsFrom magnitude 24 (coarsestGrid magnitude)

/-! ### Writing the digits -/

/-- Which numbers are written without an exponent: those whose first digit
stands for a power of ten in the given range. -/
structure Style where
  leastPositional : Int
  greatestPositional : Int

def zeros (count : Nat) : String :=
  String.ofList (List.replicate count '0')

/-- Digits with a point, and with at least one digit on each side of it. -/
def positional (digits : List Char) (exponent : Int) : String :=
  let places := (-exponent).toNat
  if 0 ≤ exponent then
    String.ofList digits ++ zeros exponent.toNat ++ ".0"
  else if places < digits.length then
    String.ofList (digits.take (digits.length - places)) ++ "."
      ++ String.ofList (digits.drop (digits.length - places))
  else "0." ++ zeros (places - digits.length) ++ String.ofList digits

/-- The first digit, a point and the other digits if there are any, and the
power of ten of the first digit with its sign. -/
def scientific (digits : List Char) (leading : Int) : String :=
  let mantissa :=
    match digits with
    | first :: second :: rest => String.ofList (first :: '.' :: second :: rest)
    | few => String.ofList few
  let sign := if leading < 0 then "-" else "+"
  mantissa ++ "e" ++ sign ++ toString leading.natAbs

def Digits.text (number : Digits) (style : Style) : String :=
  let digits := Nat.toDigits 10 number.digits
  let leading := number.exponent + (digits.length - 1 : Nat)
  if style.leastPositional ≤ leading && leading ≤ style.greatestPositional then
    positional digits number.exponent
  else scientific digits leading

def text? (format : BinaryFormat) (style : Style) (bits : Nat) :
    Option String :=
  (format.magnitude? bits).map fun magnitude =>
    (if format.isNegative bits then "-" else "")
      ++ (shortest magnitude).text style

end Decimal
end DexCensus
