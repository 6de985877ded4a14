import DesignTokens.Text.DecimalDigit
import DesignTokens.Text.LineFeed

/-!
# Version numbers

A version number is three runs of decimal digits with points between them, after which one line
feed is let pass. A project file gives its version in an element of digits and points.
-/

namespace DesignTokens

namespace Version

/-- The text is a version number. -/
def isValid (version : String) : Bool :=
  let numbers := (Text.dropFinalLineFeed version.toList).splitOn '.'
  numbers.length == 3 && numbers.all Text.isNumber

/-- The opening tag of a version element. -/
def openTag : List Char := "<Version>".toList

/-- The closing tag of a version element. -/
def closeTag : List Char := "</Version>".toList

/-- The character may stand in a version element. -/
def isElementChar (c : Char) : Bool :=
  c == '.' || Text.isDecimalDigit c

/-- The characters after those that come first in a text. -/
def afterText? (first cs : List Char) : Option (List Char) :=
  if first.isPrefixOf cs then some (cs.drop first.length) else none

/-- The content of a version element that a text starts with, and the text after the element. -/
def elementAt? (cs : List Char) : Option (List Char × List Char) := do
  let inside ← afterText? openTag cs
  let content := inside.takeWhile isElementChar
  let rest ← afterText? closeTag (inside.dropWhile isElementChar)
  if content.isEmpty then none else some (content, rest)

/-- A text cut at its first version element. -/
structure Element where
  before : List Char
  content : List Char
  after : List Char

/-- The first version element of a text. -/
def firstElement? : List Char → Option Element
  | [] => none
  | c :: rest =>
    match elementAt? (c :: rest) with
    | some (content, after) => some ⟨[], content, after⟩
    | none => (firstElement? rest).map fun e => { e with before := c :: e.before }

/-- The version that a project file gives. -/
def ofProject? (text : String) : Option String :=
  (firstElement? text.toList).map fun e => String.ofList e.content

/-- The project file with a version in its first version element. -/
def putInProject (version text : String) : String :=
  match firstElement? text.toList with
  | some e =>
    String.ofList (e.before ++ openTag ++ version.toList ++ closeTag ++ e.after)
  | none => text

end Version

end DesignTokens
