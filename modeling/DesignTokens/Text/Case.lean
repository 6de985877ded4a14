import DesignTokens.Text.CaseTable

/-!
# Upper and lower case

`upperChar` and `lowerChar` give the full mapping of one character, which may be several
characters. `lower` maps a whole text, where a capital sigma that ends a word becomes the final
sigma: some cased character comes before it and none comes after it, case-ignorable characters
not counted.
-/

namespace DesignTokens.Text

/-- The full case mapping of a code point: its expansion, its run, or itself. -/
def mapCase (runs : List CaseRun) (expansions : List (Nat × List Nat)) (c : Char) : List Char :=
  match expansions.lookup c.toNat with
  | some image => image.map Char.ofNat
  | none =>
    match runs.find? fun r => r.applies c.toNat with
    | some r => [Char.ofNat (r.image c.toNat)]
    | none => [c]

/-- The upper case of a character. -/
def upperChar (c : Char) : List Char :=
  if c.toNat < 128 then [c.toUpper] else mapCase upperRuns upperExpansions c

/-- The lower case of a character outside any context. -/
def lowerChar (c : Char) : List Char :=
  if c.toNat < 128 then [c.toLower] else mapCase lowerRuns lowerExpansions c

/-- The character has case and counts in a case context. -/
def isCased (c : Char) : Bool :=
  if c.toNat < 128 then c.isAlpha else covers casedTable c

/-- A case context looks past this character. -/
def isCaseIgnorable (c : Char) : Bool :=
  if c.toNat < 128 then ['\'', '.', ':', '^', '`'].contains c else covers caseIgnorableTable c

/-- The nearest character that is not case-ignorable has case. -/
def nextIsCased (cs : List Char) : Bool :=
  match cs.dropWhile isCaseIgnorable with
  | [] => false
  | c :: _ => isCased c

/-- Lower case of a text, given the characters before it in reverse order. -/
def lowerAfter (before : List Char) : List Char → List Char
  | [] => []
  | c :: rest =>
    if c = 'Σ' then
      (if nextIsCased before && !nextIsCased rest then 'ς' else 'σ') ::
        lowerAfter (c :: before) rest
    else
      lowerChar c ++ lowerAfter (c :: before) rest

/-- Lower case of a text. -/
def lower (text : String) : String :=
  String.ofList (lowerAfter [] text.toList)

/-- The text with its first character in upper case. -/
def capitalize (text : List Char) : List Char :=
  match text with
  | [] => []
  | c :: rest => upperChar c ++ rest

end DesignTokens.Text
