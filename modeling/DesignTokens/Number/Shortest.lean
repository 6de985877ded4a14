import DesignTokens.Number.Binary64

/-!
# The shortest decimal that reads back

Every positive number is the nearest one to all decimals of an interval around it, and the ends of
the interval belong to it when the significand is even. `shortest` looks for a decimal in the
interval on the grids of one, two, and more significant digits. The first grid that has one gives
the digits. When both neighbours of the number lie in the interval, the nearer one is taken, and
the even one of two equally near.
-/

namespace DesignTokens

/-- The number `digits * 10 ^ exponent`. -/
structure Decimal where
  digits : Nat
  exponent : Int
  deriving DecidableEq

namespace Decimal

/-- The decimal without trailing zeros in its digits, given a bound on their number. -/
def strip : Nat → Decimal → Decimal
  | 0, x => x
  | bound + 1, x =>
    if x.digits ≠ 0 ∧ x.digits % 10 = 0 then strip bound ⟨x.digits / 10, x.exponent + 1⟩ else x

end Decimal

/-- The numbers that round to a given one, all over a common denominator: the number itself, the
ends of the interval, and whether the ends belong to it. -/
structure RoundingInterval where
  denominator : Nat
  lower : Nat
  middle : Nat
  upper : Nat
  closed : Bool

namespace RoundingInterval

/-- The interval of `significand * 2 ^ exponent`. The gap below a power of two is half as wide. -/
def ofDyadic (significand : Nat) (exponent : Int) : RoundingInterval :=
  let unit := Nat.pow 2 (exponent - 2).toNat
  let narrow := significand = Binary64.leadingBit ∧ Binary64.leastExponent < exponent
  let below := if narrow then 1 else 2
  { denominator := Nat.pow 2 (2 - exponent).toNat
    lower := (4 * significand - below) * unit
    middle := 4 * significand * unit
    upper := (4 * significand + 2) * unit
    closed := significand % 2 == 0 }

/-- The fraction `numerator / denominator` lies in the interval. -/
def holds (i : RoundingInterval) (numerator denominator : Nat) : Bool :=
  let point := numerator * i.denominator
  let low := i.lower * denominator
  let high := i.upper * denominator
  if i.closed then low ≤ point && point ≤ high else low < point && point < high

/-- A fraction equal to `digits * 10 ^ exponent`. -/
def fractionOf (digits : Nat) (exponent : Int) : Nat × Nat :=
  (digits * Nat.pow 10 exponent.toNat, Nat.pow 10 (-exponent).toNat)

/-- The digits of the interval's best point on the grid of multiples of `10 ^ exponent`. -/
def onGrid? (i : RoundingInterval) (exponent : Int) : Option Nat :=
  let (stepUp, stepDown) := fractionOf 1 exponent
  let unit := i.denominator * stepUp
  let scaled := i.middle * stepDown
  let floor := scaled / unit
  let remainder := scaled % unit
  let inside := fun digits => let (n, d) := fractionOf digits exponent; i.holds n d
  match inside floor, inside (floor + 1) with
  | true, true =>
    if 2 * remainder < unit then some floor
    else if unit < 2 * remainder then some (floor + 1)
    else some (if floor % 2 = 0 then floor else floor + 1)
  | true, false => some floor
  | false, true => some (floor + 1)
  | false, false => none

/-- The first grid with a point of the interval, from the given exponent downwards. -/
def firstGrid (i : RoundingInterval) : Nat → Int → Decimal
  | 0, exponent => ⟨(i.onGrid? exponent).getD 0, exponent⟩
  | more + 1, exponent =>
    match i.onGrid? exponent with
    | some digits => ⟨digits, exponent⟩
    | none => firstGrid i more (exponent - 1)

/-- The exponent of the leading decimal digit of the number in the middle. -/
def leadingExponent (i : RoundingInterval) : Int :=
  let guess : Int := (Binary64.digitCount i.middle : Int) - Binary64.digitCount i.denominator
  let (n, d) := fractionOf 1 guess
  if i.middle * d < n * i.denominator then guess - 1 else guess

/-- The shortest decimal of the interval. Seventeen digits always suffice. -/
def shortest (i : RoundingInterval) : Decimal :=
  (firstGrid i 16 i.leadingExponent).strip 17

end RoundingInterval

/-- The shortest decimal that reads back as the positive number `significand * 2 ^ exponent`. -/
def Binary64.shortest (significand : Nat) (exponent : Int) : Decimal :=
  (RoundingInterval.ofDyadic significand exponent).shortest

end DesignTokens
