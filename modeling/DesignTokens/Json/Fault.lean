/-!
# Faults of document texts

A fault says what is wrong with a text and at which character. Its message gives the place as a
line and a column, both counted from one, and as an offset counted from zero.
-/

namespace DesignTokens

/-- What is wrong at a place of a document text. -/
inductive FaultKind where
  | value
  | propertyName
  | colon
  | comma
  | extraData
  | unterminatedString
  | controlCharacter
  | badEscape
  | badUnicodeEscape
  | byteOrderMark
  deriving DecidableEq

/-- The description of a fault. -/
def FaultKind.description : FaultKind → String
  | .value => "Expecting value"
  | .propertyName => "Expecting property name enclosed in double quotes"
  | .colon => "Expecting ':' delimiter"
  | .comma => "Expecting ',' delimiter"
  | .extraData => "Extra data"
  | .unterminatedString => "Unterminated string starting at"
  | .controlCharacter => "Invalid control character at"
  | .badEscape => "Invalid \\escape"
  | .badUnicodeEscape => "Invalid \\uXXXX escape"
  | .byteOrderMark => "Unexpected UTF-8 BOM (decode using utf-8-sig)"

/-- A fault at a character offset of a text. -/
structure TextFault where
  kind : FaultKind
  line : Nat
  column : Nat
  offset : Nat
  deriving DecidableEq

namespace TextFault

/-- The fault at an offset of a text. -/
def locate (text : List Char) (kind : FaultKind) (offset : Nat) : TextFault :=
  let before := text.take offset
  { kind
    line := before.count '\n' + 1
    column := (before.reverse.takeWhile (· != '\n')).length + 1
    offset }

/-- The description of the fault together with its place. -/
def message (fault : TextFault) : String :=
  let place := fun (n : Nat) => toString n
  fault.kind.description ++ ": line " ++ place fault.line ++ " column " ++ place fault.column ++
    " (char " ++ place fault.offset ++ ")"

end TextFault

end DesignTokens
