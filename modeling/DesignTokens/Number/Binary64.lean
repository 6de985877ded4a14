/-!
# Binary floating-point numbers of 64 bits

A number is its word. `Binary64.value` reads the word as a signed dyadic number
`significand * 2 ^ exponent`, an infinity or a not-a-number, and all arithmetic is exact arithmetic
on that view. `Binary64.ofRatio` is the word nearest to a quotient, where a tie goes to the even
significand.
-/

namespace DesignTokens

/-- A number given by its interchange word: sign, eleven exponent bits, fifty-two fraction bits. -/
structure Binary64 where
  bits : UInt64
  deriving DecidableEq, Inhabited

namespace Binary64

/-- What a word denotes. -/
inductive Value where
  | finite (negative : Bool) (significand : Nat) (exponent : Int)
  | infinity (negative : Bool)
  | nan
  deriving DecidableEq

/-- The exponent of the least significant bit of a subnormal number. -/
def leastExponent : Int := -1074

/-- The exponent field of infinities and not-a-numbers. -/
def topField : Nat := 2047

/-- The weight of the leading bit of a significand with all of its fifty-three bits. -/
def leadingBit : Nat := Nat.pow 2 52

/-- The sign bit is set. -/
def negative (x : Binary64) : Bool :=
  x.bits.toNat / Nat.pow 2 63 % 2 == 1

/-- The biased exponent. -/
def field (x : Binary64) : Nat :=
  x.bits.toNat / leadingBit % Nat.pow 2 11

/-- The trailing significand bits. -/
def fraction (x : Binary64) : Nat :=
  x.bits.toNat % leadingBit

/-- The number that the word denotes. -/
def value (x : Binary64) : Value :=
  if x.field = topField then
    if x.fraction = 0 then .infinity x.negative else .nan
  else if x.field = 0 then
    .finite x.negative x.fraction leastExponent
  else
    .finite x.negative (leadingBit + x.fraction) ((x.field : Int) - 1075)

/-- The word with the given sign, exponent field and fraction. -/
def ofFields (negative : Bool) (field fraction : Nat) : Binary64 :=
  ⟨UInt64.ofNat ((if negative then Nat.pow 2 63 else 0) + field * leadingBit + fraction)⟩

/-- The infinity of a sign. -/
def infinity (negative : Bool) : Binary64 :=
  ofFields negative topField 0

/-- The quiet not-a-number. -/
def nan : Binary64 :=
  ofFields false topField (Nat.pow 2 51)

/-- The zero of a sign. -/
def zero (negative : Bool) : Binary64 :=
  ofFields negative 0 0

/-- The word of `significand * 2 ^ exponent`, for a significand of at most fifty-three bits that
has all of them unless the exponent is the least one. -/
def ofDyadic (negative : Bool) (significand : Nat) (exponent : Int) : Binary64 :=
  if significand < leadingBit then
    ofFields negative 0 significand
  else
    let field := (exponent + 1075).toNat
    if topField ≤ field then infinity negative
    else ofFields negative field (significand - leadingBit)

/-- The quotient rounded to an integer, where a half goes to the even neighbour. -/
def roundHalfEven (numerator denominator : Nat) : Nat :=
  let quotient := numerator / denominator
  let remainder := numerator % denominator
  if 2 * remainder < denominator then quotient
  else if denominator < 2 * remainder then quotient + 1
  else if quotient % 2 = 0 then quotient
  else quotient + 1

/-- The quotient divided by `2 ^ exponent`, as a fraction of natural numbers. -/
def scaled (numerator denominator : Nat) (exponent : Int) : Nat × Nat :=
  (numerator * Nat.pow 2 (-exponent).toNat, denominator * Nat.pow 2 exponent.toNat)

/-- The exponent at which the quotient has fifty-three bits before the point, but not below the
least exponent. -/
def ratioExponent (numerator denominator : Nat) : Int :=
  let guess : Int := (numerator.log2 : Int) - denominator.log2 - 52
  let (n, d) := scaled numerator denominator guess
  max leastExponent (if n / d < leadingBit then guess - 1 else guess)

/-- The word nearest to `numerator / denominator`, for a denominator that is not zero. -/
def ofRatio (negative : Bool) (numerator denominator : Nat) : Binary64 :=
  if numerator = 0 then
    zero negative
  else
    let exponent := ratioExponent numerator denominator
    let (n, d) := scaled numerator denominator exponent
    let significand := roundHalfEven n d
    if significand = 2 * leadingBit then ofDyadic negative leadingBit (exponent + 1)
    else ofDyadic negative significand exponent

/-- The number of decimal digits of a number, and one for zero. -/
def digitCount (n : Nat) : Nat :=
  (Nat.toDigits 10 n).length

/-- The word nearest to `digits * 10 ^ exponent`. Magnitudes beyond the finite range and below
half the least positive number are told by the decimal exponent, so no large power is formed. -/
def ofDecimal (negative : Bool) (digits : Nat) (exponent : Int) : Binary64 :=
  if digits = 0 then
    zero negative
  else
    let magnitude := exponent + digitCount digits
    if 310 < magnitude then infinity negative
    else if magnitude < -330 then zero negative
    else ofRatio negative (digits * Nat.pow 10 exponent.toNat) (Nat.pow 10 (-exponent).toNat)

/-- The number is a zero of either sign. -/
def isZero (x : Binary64) : Bool :=
  x.field == 0 && x.fraction == 0

/-- The integer that the number is, when it is one. -/
def toInt? (x : Binary64) : Option Int :=
  match x.value with
  | .finite negative significand exponent =>
    let (n, d) := scaled significand 1 (-exponent)
    if n % d = 0 then some (if negative then -(n / d : Nat) else (n / d : Nat)) else none
  | _ => none

end Binary64

end DesignTokens
