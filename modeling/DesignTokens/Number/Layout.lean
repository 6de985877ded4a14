import DesignTokens.Number.Shortest

/-!
# The text of a number

A `Layout` fixes which magnitudes are written positionally and how infinities and not-a-numbers
are spelled. `Binary64.render` writes the shortest digits in a layout, and `numeral` is the text of
a numeric token value, where a number without a fraction is written as an integer.
-/

namespace DesignTokens

/-- The decisions of a format for floating-point numbers. -/
structure Layout where
  /-- The least exponent of the leading digit that is written positionally. -/
  leastPositional : Int
  /-- The first exponent of the leading digit that is written with an exponent mark. -/
  firstScientific : Int
  /-- The least number of digits of a written exponent. -/
  exponentWidth : Nat
  nan : String
  infinity : String

/-- The layout of numbers in documents. -/
def Layout.document : Layout :=
  { leastPositional := -4
    firstScientific := 16
    exponentWidth := 2
    nan := "NaN"
    infinity := "Infinity" }

/-- The layout of numbers in literals and in token values. -/
def Layout.literal : Layout :=
  { Layout.document with nan := "nan", infinity := "inf" }

namespace Decimal

/-- The digits of the decimal as characters. -/
def characters (x : Decimal) : List Char :=
  Nat.toDigits 10 x.digits

/-- The exponent of the leading digit. -/
def leading (x : Decimal) : Int :=
  x.exponent + (x.characters.length : Int) - 1

/-- The number written with a point and at least one digit on each side of it. -/
def positional (x : Decimal) : List Char :=
  let digits := x.characters
  let point := x.leading + 1
  if point ≤ 0 then
    '0' :: '.' :: (List.replicate (-point).toNat '0' ++ digits)
  else
    let whole := digits.take point.toNat
    let zeros := List.replicate (point.toNat - digits.length) '0'
    let rest := digits.drop point.toNat
    whole ++ zeros ++ '.' :: (if rest.isEmpty then ['0'] else rest)

/-- The exponent of a number in scientific notation: a sign and a least number of digits. -/
def exponentMark (width : Nat) (exponent : Int) : List Char :=
  let digits := Nat.toDigits 10 exponent.natAbs
  'e' :: (if exponent < 0 then '-' else '+') ::
    (List.replicate (width - digits.length) '0' ++ digits)

/-- The number written with one digit before the point and an exponent mark. -/
def scientific (width : Nat) (x : Decimal) : List Char :=
  let mantissa := match x.characters with
    | [] => []
    | [digit] => [digit]
    | digit :: rest => digit :: '.' :: rest
  mantissa ++ exponentMark width x.leading

end Decimal

namespace Layout

/-- The text of a decimal in a layout. -/
def renderDecimal (layout : Layout) (x : Decimal) : List Char :=
  if layout.leastPositional ≤ x.leading && x.leading < layout.firstScientific then
    x.positional
  else
    x.scientific layout.exponentWidth

end Layout

namespace Binary64

/-- The text of a number: the shortest digits that read back, in the given layout. -/
def render (layout : Layout) (x : Binary64) : String :=
  let signed := fun (negative : Bool) (text : String) => if negative then "-" ++ text else text
  match x.value with
  | .nan => layout.nan
  | .infinity negative => signed negative layout.infinity
  | .finite negative significand exponent =>
    if significand = 0 then signed negative (String.ofList (Decimal.positional ⟨0, 0⟩))
    else signed negative (String.ofList (layout.renderDecimal (shortest significand exponent)))

/-- The text of a numeric token value: an exact integer when the number has no fraction. -/
def numeral (x : Binary64) : String :=
  match x.toInt? with
  | some n => toString n
  | none => x.render .literal

end Binary64

end DesignTokens
