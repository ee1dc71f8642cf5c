/-!
# The shortest decimal of a double

A double stands for every real number that rounds to it. Its shortest decimal
is the one with the fewest significant digits among the decimals in that
interval and, of those, the one nearest to the double's own value. Both ends of
the interval belong to it exactly when the significand is even, because ties
round to even.

The search is exact. Multiples of a power of ten that lie in the interval are
recognised by comparing natural numbers, from the place of the leading digit
down to the seventeenth digit, where there always is one.
-/

namespace PollScript.Decimal

/-- How to choose between two shortest decimals at the same distance. -/
inductive Tie where
  | up
  | even
deriving DecidableEq, Repr

/-- A positive number as digits after the point, `0.d₁d₂… * 10 ^ point`. -/
structure Digits where
  /-- The digits, the first of which is not zero. -/
  digits : List Char
  /-- The place of the point, counted from the first digit to the right. -/
  point : Int
deriving DecidableEq, Repr

/-- The digits of `coefficient * 10 ^ exponent`, without zeros at the end. -/
def Digits.ofScaled (coefficient : Nat) (exponent : Int) : Digits :=
  let written := Nat.toDigits 10 coefficient
  ⟨(written.reverse.dropWhile (· == '0')).reverse, written.length + exponent⟩

/-! ## The interval of a double -/

/-- The real numbers that round to `significand * 2 ^ exponent`, with both ends
    in units of a quarter of the last binary place. -/
structure Interval where
  lower : Nat
  value : Nat
  upper : Nat
  closed : Bool
  /-- The exponent of two of the unit. -/
  exponent : Int
deriving DecidableEq, Repr

/-- The significand at which the spacing of the doubles below is half of that
    above. -/
def leastNormal : Nat := Nat.pow 2 52

/-- The exponent of the subnormal numbers and of the least normal ones. -/
def leastExponent : Int := -1074

/-- The interval of a double. It reaches half a place up and down, but only a
    quarter down from a power of two with a finer spacing below. -/
def Interval.ofBinary (significand : Nat) (exponent : Int) : Interval where
  lower := 4 * significand -
    (if significand = leastNormal ∧ leastExponent < exponent then 1 else 2)
  value := 4 * significand
  upper := 4 * significand + 2
  closed := significand % 2 = 0
  exponent := exponent - 2

/-! ## Search on decimal grids -/

/-- Two natural numbers whose quotient is the unit of an interval divided by
    `10 ^ k`. -/
def Interval.unitOn (i : Interval) (k : Int) : Nat × Nat :=
  (Nat.pow 2 i.exponent.toNat * Nat.pow 10 (-k).toNat,
   Nat.pow 2 (-i.exponent).toNat * Nat.pow 10 k.toNat)

/-- The multiple of `10 ^ k` in the interval that is nearest to the value, if
    one of the two next to the value is in the interval. -/
def Interval.nearestOn (i : Interval) (tie : Tie) (k : Int) : Option Nat :=
  let (unit, step) := i.unitOn k
  let below := i.value * unit / step
  let above := below + 1
  let reachesDown :=
    if i.closed then i.lower * unit ≤ below * step else i.lower * unit < below * step
  let reachesUp :=
    if i.closed then above * step ≤ i.upper * unit else above * step < i.upper * unit
  let down := i.value * unit - below * step
  let up := above * step - i.value * unit
  let preferAbove := up < down ∨ (up = down ∧ (tie = .up ∨ above % 2 = 0))
  if reachesDown ∧ reachesUp then some (if preferAbove then above else below)
  else if reachesDown then some below
  else if reachesUp then some above
  else none

/-- The power of ten of the leading digit of the value. -/
def Interval.leadingPlace (i : Interval) : Int :=
  let (unit, step) := i.unitOn 0
  let value := i.value * unit
  if step ≤ value then ((Nat.toDigits 10 (value / step)).length : Int) - 1
  else -((Nat.toDigits 10 ((step - 1) / value)).length : Int)

/-- Seventeen significant digits tell all doubles apart. -/
def mostDigits : Nat := 17

/-- The shortest decimal in the interval, and of those the nearest to the
    value. -/
def Interval.shortest (i : Interval) (tie : Tie) : Digits :=
  let place := i.leadingPlace
  let found := (List.range mostDigits).findSome? fun (n : Nat) =>
    (i.nearestOn tie (place - n)).map (Digits.ofScaled · (place - n))
  found.getD ⟨['0'], 1⟩

/-- The shortest decimal that reads back as `significand * 2 ^ exponent`. -/
def shortest (tie : Tie) (significand : Nat) (exponent : Int) : Digits :=
  (Interval.ofBinary significand exponent).shortest tie

end PollScript.Decimal
