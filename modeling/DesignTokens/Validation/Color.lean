import DesignTokens.Text.LineFeed

/-!
# Shapes of color values

Only the form of a color is checked, never its meaning: a hash sign with six hexadecimal digits,
which one final line feed may follow, or a text that starts with a color function. A placeholder
is any text in braces.
-/

namespace DesignTokens

namespace Color

/-- The characters are hexadecimal digits of ASCII. -/
def isHexDigit (c : Char) : Bool :=
  c.isDigit || ('a' ≤ c && c ≤ 'f') || ('A' ≤ c && c ≤ 'F')

/-- A hash sign and six hexadecimal digits. -/
def isHexColor : List Char → Bool
  | '#' :: rest =>
    let digits := Text.dropFinalLineFeed rest
    digits.length == 6 && digits.all isHexDigit
  | _ => false

/-- The openings of color functions. -/
def functions : List String :=
  ["rgb(", "rgba(", "hsl(", "hsla(", "oklch("]

/-- The text has the form of a literal color. -/
def isLiteral (value : String) : Bool :=
  isHexColor value.toList || functions.any fun opening => opening.toList.isPrefixOf value.toList

/-- The text stands in braces. -/
def isPlaceholder (value : String) : Bool :=
  value.toList.head? == some '{' && value.toList.getLast? == some '}'

end Color

end DesignTokens
