import DesignTokens.Json.Basic
import DesignTokens.Json.Fault

/-!
# Reading documents

The reader works on the characters that are left. A fault found on the way is the kind of fault
together with the characters left at its place, and `Json.read` turns it into a `TextFault`. Every
step into a value, an item, a field or a character of a string takes one unit of fuel, and at most
two steps are taken without passing a character, so the fuel that `Json.read` supplies, two units
for each character and two more, always suffices.

The grammar is that of JSON with three more numbers, `NaN`, `Infinity` and `-Infinity`. Whitespace
is space, tab, line feed and carriage return. A repeated name keeps the place of its first
occurrence and the value of its last. An escaped surrogate without its partner reads as U+FFFD.
-/

namespace DesignTokens

namespace Json

/-- A result of reading: a value and the characters after it, or a fault and where it lies. -/
abbrev Reading (α : Type) := Except (FaultKind × List Char) (α × List Char)

/-- The character separates tokens and means nothing else. -/
def isBlankChar (c : Char) : Bool :=
  c == ' ' || c == '\t' || c == '\n' || c == '\r'

/-- The characters from the first one that is not blank. -/
def skipBlanks (cs : List Char) : List Char :=
  cs.dropWhile isBlankChar

/-! ## Strings -/

/-- The value of a hexadecimal digit. -/
def hexDigit? (c : Char) : Option Nat :=
  if '0' ≤ c ∧ c ≤ '9' then some (c.toNat - '0'.toNat)
  else if 'a' ≤ c ∧ c ≤ 'f' then some (c.toNat - 'a'.toNat + 10)
  else if 'A' ≤ c ∧ c ≤ 'F' then some (c.toNat - 'A'.toNat + 10)
  else none

/-- The number written with the first four characters, which must be hexadecimal digits with some
character after them. -/
def hexQuad? : List Char → Option (Nat × List Char)
  | a :: b :: c :: d :: next :: rest => do
    let a ← hexDigit? a
    let b ← hexDigit? b
    let c ← hexDigit? c
    let d ← hexDigit? d
    some (((a * 16 + b) * 16 + c) * 16 + d, next :: rest)
  | _ => none

/-- The code unit is the first half of a surrogate pair. -/
def isHighSurrogate (n : Nat) : Bool :=
  0xD800 ≤ n && n < 0xDC00

/-- The code unit is the second half of a surrogate pair. -/
def isLowSurrogate (n : Nat) : Bool :=
  0xDC00 ≤ n && n < 0xE000

/-- The character of a code unit that stands alone. -/
def unitChar (n : Nat) : Char :=
  if isHighSurrogate n || isLowSurrogate n then '\uFFFD' else Char.ofNat n

/-- The second half of a surrogate pair at the front of the characters. -/
def lowHalf? : List Char → Option (Nat × List Char)
  | '\\' :: 'u' :: rest =>
    match hexQuad? rest with
    | some (n, after) => if isLowSurrogate n then some (n, after) else none
    | none => none
  | _ => none

/-- The character that an escape names by its code units, given the characters after the `u`. -/
def readUnicodeEscape (cs : List Char) : Option (Char × List Char) :=
  match hexQuad? cs with
  | none => none
  | some (n, after) =>
    if isHighSurrogate n then
      match lowHalf? after with
      | some (m, rest) => some (Char.ofNat (0x10000 + (n - 0xD800) * 0x400 + (m - 0xDC00)), rest)
      | none => some (unitChar n, after)
    else
      some (unitChar n, after)

/-- The character that a one-letter escape stands for. -/
def shortEscape? : Char → Option Char
  | '"' => some '"'
  | '\\' => some '\\'
  | '/' => some '/'
  | 'b' => some '\x08'
  | 'f' => some '\x0c'
  | 'n' => some '\n'
  | 'r' => some '\r'
  | 't' => some '\t'
  | _ => none

/-- The rest of a string after its opening quote. `opening` is where the string starts, and `read`
holds the characters read so far in reverse order. -/
def readString (opening : List Char) : Nat → List Char → List Char → Reading String
  | 0, _, _ => .error (.unterminatedString, opening)
  | fuel + 1, read, cs =>
    match cs with
    | [] => .error (.unterminatedString, opening)
    | '"' :: rest => .ok (String.ofList read.reverse, rest)
    | '\\' :: rest =>
      match rest with
      | [] => .error (.unterminatedString, opening)
      | 'u' :: digits =>
        match readUnicodeEscape digits with
        | some (c, after) => readString opening fuel (c :: read) after
        | none => .error (.badUnicodeEscape, rest)
      | letter :: after =>
        match shortEscape? letter with
        | some c => readString opening fuel (c :: read) after
        | none => .error (.badEscape, cs)
    | c :: rest =>
      if c.toNat < 32 then .error (.controlCharacter, cs)
      else readString opening fuel (c :: read) rest

/-! ## Numbers -/

/-- The number written with decimal digits. -/
def natOfDigits (digits : List Char) : Nat :=
  digits.foldl (fun n c => n * 10 + (c.toNat - '0'.toNat)) 0

/-- The leading decimal digits and the rest. -/
def spanDigits (cs : List Char) : List Char × List Char :=
  cs.span Char.isDigit

/-- The whole part of a number: a lone zero, or digits that do not start with zero. -/
def wholePart? : List Char → Option (List Char × List Char)
  | [] => none
  | c :: rest =>
    if c = '0' then some (['0'], rest)
    else if c.isDigit then some (spanDigits (c :: rest))
    else none

/-- The digits after a point, when a point with a digit after it comes first. -/
def fractionPart : List Char → List Char × List Char
  | '.' :: rest =>
    match spanDigits rest with
    | ([], _) => ([], '.' :: rest)
    | (digits, after) => (digits, after)
  | cs => ([], cs)

/-- The sign at the front of an exponent. -/
def exponentSign : List Char → Bool × List Char
  | '-' :: rest => (true, rest)
  | '+' :: rest => (false, rest)
  | cs => (false, cs)

/-- The exponent, when an exponent mark with a digit comes first. -/
def exponentPart? : List Char → Option (Int × List Char)
  | c :: rest =>
    if c = 'e' ∨ c = 'E' then
      let (negative, digits) := exponentSign rest
      match spanDigits digits with
      | ([], _) => none
      | (ds, after) =>
        let n : Int := natOfDigits ds
        some (if negative then -n else n, after)
    else
      none
  | [] => none

/-- A number without its sign. A point or an exponent makes it a floating-point number. -/
def readMagnitude? (negative : Bool) (cs : List Char) : Option (Json × List Char) := do
  let (whole, afterWhole) ← wholePart? cs
  let (fraction, afterFraction) := fractionPart afterWhole
  let digits := natOfDigits (whole ++ fraction)
  match fraction, exponentPart? afterFraction with
  | [], none =>
    let n : Int := digits
    some (.int (if negative then -n else n), afterFraction)
  | _, none => some (.real (.ofDecimal negative digits (-fraction.length)), afterFraction)
  | _, some (exponent, after) =>
    some (.real (.ofDecimal negative digits (exponent - fraction.length)), after)

/-- The characters after a word, when they start with it. -/
def afterWord? (word : String) (cs : List Char) : Option (List Char) :=
  if word.toList.isPrefixOf cs then some (cs.drop word.length) else none

/-- The words that stand for values. -/
def words : List (String × Json) :=
  [("null", .null), ("true", .bool true), ("false", .bool false), ("NaN", .real .nan),
   ("Infinity", .real (.infinity false)), ("-Infinity", .real (.infinity true))]

/-- The value of the word at the front of the characters. -/
def readWord? (cs : List Char) : Option (Json × List Char) :=
  words.findSome? fun word => (afterWord? word.1 cs).map fun rest => (word.2, rest)

/-- A number at the front of the characters. -/
def readNumber? : List Char → Option (Json × List Char)
  | '-' :: rest => readMagnitude? true rest
  | cs => readMagnitude? false cs

/-- A value that is neither a string, a list nor an object. -/
def readScalar (cs : List Char) : Reading Json :=
  match (readWord? cs).orElse fun _ => readNumber? cs with
  | some reading => .ok reading
  | none => .error (.value, cs)

/-! ## Values -/

/-- A colon with blanks around it. -/
def readColon (cs : List Char) : Except (FaultKind × List Char) (List Char) :=
  match skipBlanks cs with
  | ':' :: rest => .ok (skipBlanks rest)
  | after => .error (.colon, after)

mutual

/-- A value at the front of the characters. -/
def readValue : Nat → List Char → Reading Json
  | 0, cs => .error (.value, cs)
  | fuel + 1, cs =>
    match cs with
    | '"' :: rest =>
      match readString cs fuel [] rest with
      | .ok (text, after) => .ok (.str text, after)
      | .error fault => .error fault
    | '\x7b' :: rest =>
      match skipBlanks rest with
      | '\x7d' :: after => .ok (.obj [], after)
      | start => readFields fuel [] start
    | '[' :: rest =>
      match skipBlanks rest with
      | ']' :: after => .ok (.arr [], after)
      | start => readItems fuel [] start
    | _ => readScalar cs

/-- The items of a list from one that must be there, after those in `read`. -/
def readItems : Nat → List Json → List Char → Reading Json
  | 0, _, cs => .error (.value, cs)
  | fuel + 1, read, cs =>
    match readValue fuel cs with
    | .error fault => .error fault
    | .ok (item, afterItem) =>
      match skipBlanks afterItem with
      | ']' :: after => .ok (.arr (item :: read).reverse, after)
      | ',' :: after => readItems fuel (item :: read) (skipBlanks after)
      | after => .error (.comma, after)

/-- The fields of an object from one that must be there, after those in `read`. -/
def readFields : Nat → List (String × Json) → List Char → Reading Json
  | 0, _, cs => .error (.propertyName, cs)
  | fuel + 1, read, cs =>
    match cs with
    | '"' :: rest =>
      match readString cs fuel [] rest with
      | .error fault => .error fault
      | .ok (name, afterName) =>
        match readColon afterName with
        | .error fault => .error fault
        | .ok start =>
          match readValue fuel start with
          | .error fault => .error fault
          | .ok (value, afterValue) =>
            match skipBlanks afterValue with
            | '\x7d' :: after => .ok (.obj (Fields.ofPairs ((name, value) :: read).reverse), after)
            | ',' :: after => readFields fuel ((name, value) :: read) (skipBlanks after)
            | after => .error (.comma, after)
    | _ => .error (.propertyName, cs)

end

/-- The value that a whole text denotes. -/
def readAll (cs : List Char) : Except (FaultKind × List Char) Json :=
  match cs with
  | '\uFEFF' :: _ => .error (.byteOrderMark, cs)
  | _ =>
    match readValue (2 * cs.length + 2) (skipBlanks cs) with
    | .error fault => .error fault
    | .ok (value, after) =>
      match skipBlanks after with
      | [] => .ok value
      | extra => .error (.extraData, extra)

/-- The document that a text denotes, or the first fault of the text. -/
def read (text : String) : Except TextFault Json :=
  let cs := text.toList
  match readAll cs with
  | .ok value => .ok value
  | .error (kind, rest) => .error (.locate cs kind (cs.length - rest.length))

end Json

end DesignTokens
