import DesignTokens.Json.Printer
import DesignTokens.Text.Printable

/-!
# Values as literals in messages

Messages show a value as a literal: strings in single quotes, or in double quotes when the text
has a single quote and no double quote. The quote in use, backslashes and characters that are not
printable are escaped.
-/

namespace DesignTokens

namespace Json

/-- The escape of a character that is not printable. -/
def escapeCodePoint (c : Char) : List Char :=
  let n := c.toNat
  if n < 0x100 then '\\' :: 'x' :: hexChars 2 n
  else if n < 0x10000 then '\\' :: 'u' :: hexChars 4 n
  else '\\' :: 'U' :: hexChars 8 n

/-- A character as it stands in a literal with the given quote. -/
def literalChar (quote : Char) (c : Char) : List Char :=
  if c = quote ∨ c = '\\' then ['\\', c]
  else if c = '\n' then ['\\', 'n']
  else if c = '\r' then ['\\', 'r']
  else if c = '\t' then ['\\', 't']
  else if Text.isPrintable c then [c]
  else escapeCodePoint c

/-- The quote of a literal for a text. -/
def literalQuote (text : List Char) : Char :=
  if text.contains '\'' && !text.contains '"' then '"' else '\''

/-- A text as a literal. -/
def literalText (text : String) : String :=
  let cs := text.toList
  let quote := literalQuote cs
  String.ofList (quote :: (cs.flatMap (literalChar quote) ++ [quote]))

/-- A list of texts as a literal. -/
def literalTexts (texts : List String) : String :=
  bracket "[" ", " "]" (texts.map literalText)

mutual

/-- A value as a literal. -/
def literal : Json → String
  | .null => "None"
  | .bool b => if b then "True" else "False"
  | .int n => toString n
  | .real x => x.render .literal
  | .str s => literalText s
  | .arr items => bracket "[" ", " "]" (literalItems items)
  | .obj fields => bracket "\x7b" ", " "\x7d" (literalFields fields)

/-- The items of a list as literals. -/
def literalItems : List Json → List String
  | [] => []
  | x :: rest => x.literal :: literalItems rest

/-- The fields of an object as literals. -/
def literalFields : List (String × Json) → List String
  | [] => []
  | (key, x) :: rest => (literalText key ++ ": " ++ x.literal) :: literalFields rest

end

/-- A value inside a text: a string as it is, and any other value as a literal. -/
def display : Json → String
  | .str s => s
  | x => x.literal

end Json

end DesignTokens
