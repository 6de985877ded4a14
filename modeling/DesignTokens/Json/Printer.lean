import DesignTokens.Json.Basic
import DesignTokens.Number.Layout

/-!
# Writing documents

A document is written on one line (`Json.compact`) or with one item per line (`Json.pretty`). Both
escape quotes, backslashes and control characters. `Charset.ascii` escapes in addition every
character that is not a printable one of ASCII, by its UTF-16 code units.
-/

namespace DesignTokens

/-- Which characters are written as themselves. -/
inductive Charset where
  | unicode
  | ascii
  deriving DecidableEq

namespace Json

/-- A number below sixteen as a hexadecimal digit. -/
def hexChar (n : Nat) : Char :=
  if n < 10 then Char.ofNat ('0'.toNat + n) else Char.ofNat ('a'.toNat + (n - 10))

/-- A number in hexadecimal notation with the given number of digits. -/
def hexChars : Nat → Nat → List Char
  | 0, _ => []
  | width + 1, n => hexChars width (n / 16) ++ [hexChar (n % 16)]

/-- The escape of a UTF-16 code unit. -/
def escapeUnit (n : Nat) : List Char :=
  '\\' :: 'u' :: hexChars 4 n

/-- The UTF-16 code units of a character. -/
def codeUnits (c : Char) : List Nat :=
  let n := c.toNat
  if n < 0x10000 then [n]
  else [0xD800 + (n - 0x10000) / 0x400, 0xDC00 + (n - 0x10000) % 0x400]

/-- A character as it stands in a written string. -/
def escapeChar (charset : Charset) (c : Char) : List Char :=
  if c = '"' then ['\\', '"']
  else if c = '\\' then ['\\', '\\']
  else if c = '\n' then ['\\', 'n']
  else if c = '\r' then ['\\', 'r']
  else if c = '\t' then ['\\', 't']
  else if c = '\x08' then ['\\', 'b']
  else if c = '\x0c' then ['\\', 'f']
  else if c.toNat < 32 then escapeUnit c.toNat
  else if charset = .ascii ∧ 127 ≤ c.toNat then (codeUnits c).flatMap escapeUnit
  else [c]

/-- A string in quotes. -/
def quote (charset : Charset) (text : String) : String :=
  String.ofList ('"' :: (text.toList.flatMap (escapeChar charset) ++ ['"']))

/-- The texts between an opening and a closing bracket, with a separator between neighbours. -/
def bracket (opening separator closing : String) (texts : List String) : String :=
  opening ++ separator.intercalate texts ++ closing

mutual

/-- A document on one line. -/
def compact : Json → String
  | .null => "null"
  | .bool b => if b then "true" else "false"
  | .int n => toString n
  | .real x => x.render .document
  | .str s => quote .unicode s
  | .arr items => bracket "[" ", " "]" (compactItems items)
  | .obj fields => bracket "\x7b" ", " "\x7d" (compactFields fields)

/-- The items of a list, each on one line. -/
def compactItems : List Json → List String
  | [] => []
  | x :: rest => x.compact :: compactItems rest

/-- The fields of an object, each on one line. -/
def compactFields : List (String × Json) → List String
  | [] => []
  | (key, x) :: rest => (quote .unicode key ++ ": " ++ x.compact) :: compactFields rest

end

/-- A line break followed by the indentation of a depth, two spaces for each level. -/
def lineBreak (depth : Nat) : String :=
  String.ofList ('\n' :: List.replicate (2 * depth) ' ')

/-- The texts between brackets, each on a line of its own one level deeper. -/
def block (depth : Nat) (opening closing : String) (texts : List String) : String :=
  if texts.isEmpty then
    opening ++ closing
  else
    bracket (opening ++ lineBreak (depth + 1)) ("," ++ lineBreak (depth + 1))
      (lineBreak depth ++ closing) texts

mutual

/-- A document with one item per line, at a depth of nesting. -/
def prettyAt (charset : Charset) (depth : Nat) : Json → String
  | .null => "null"
  | .bool b => if b then "true" else "false"
  | .int n => toString n
  | .real x => x.render .document
  | .str s => quote charset s
  | .arr items => block depth "[" "]" (prettyItems charset (depth + 1) items)
  | .obj fields => block depth "\x7b" "\x7d" (prettyFields charset (depth + 1) fields)

/-- The items of a list, at a depth of nesting. -/
def prettyItems (charset : Charset) (depth : Nat) : List Json → List String
  | [] => []
  | x :: rest => x.prettyAt charset depth :: prettyItems charset depth rest

/-- The fields of an object, at a depth of nesting. -/
def prettyFields (charset : Charset) (depth : Nat) : List (String × Json) → List String
  | [] => []
  | (key, x) :: rest =>
    (quote charset key ++ ": " ++ x.prettyAt charset depth) :: prettyFields charset depth rest

end

/-- A document with one item per line. -/
def pretty (charset : Charset) (x : Json) : String :=
  x.prettyAt charset 0

end Json

end DesignTokens
