import DesignTokens.Files.Fault

/-!
# Texts in files

A file holds octets. Its text is their UTF-8 decoding, in which every line ending becomes a line
feed. Where the octets are not UTF-8, the fault is the first sequence that cannot be completed.
-/

namespace DesignTokens

namespace Octets

/-- The closed intervals in which the octets after a leading one must lie, and nothing when no
sequence starts with this octet. -/
def continuations? (lead : UInt8) : Option (List (UInt8 × UInt8)) :=
  let any : UInt8 × UInt8 := (0x80, 0xBF)
  if lead < 0x80 then some []
  else if lead < 0xC2 then none
  else if lead < 0xE0 then some [any]
  else if lead = 0xE0 then some [(0xA0, 0xBF), any]
  else if lead = 0xED then some [(0x80, 0x9F), any]
  else if lead < 0xF0 then some [any, any]
  else if lead = 0xF0 then some [(0x90, 0xBF), any, any]
  else if lead < 0xF4 then some [any, any, any]
  else if lead = 0xF4 then some [(0x80, 0x8F), any, any]
  else none

/-- The number of octets of a sequence up to the first one outside its interval, and the reason
why the sequence ends there. -/
def refusal? : List (UInt8 × UInt8) → List UInt8 → Nat → Option (Nat × EncodingReason)
  | [], _, _ => none
  | _ :: _, [], length => some (length, .unexpectedEnd)
  | (low, high) :: intervals, octet :: octets, length =>
    if low ≤ octet ∧ octet ≤ high then refusal? intervals octets (length + 1)
    else some (length, .invalidContinuation)

/-- The first fault of octets, of which the first stands at a position. -/
def firstFault : Nat → Nat → List UInt8 → Option EncodingFault
  | 0, _, _ => none
  | _ + 1, _, [] => none
  | fuel + 1, position, lead :: octets =>
    match continuations? lead with
    | none => some ⟨lead, position, 1, .invalidStart⟩
    | some intervals =>
      match refusal? intervals octets 1 with
      | some (length, reason) => some ⟨lead, position, length, reason⟩
      | none =>
        firstFault fuel (position + 1 + intervals.length) (octets.drop intervals.length)

end Octets

/-- The text that octets encode. -/
def decodeText (octets : ByteArray) : Except EncodingFault String :=
  match String.fromUTF8? octets with
  | some text => .ok text
  | none =>
    let list := octets.toList
    .error ((Octets.firstFault list.length 0 list).getD ⟨0, 0, 1, .invalidStart⟩)

/-- One step of `unifyLines` from the right: the characters so far, and whether the character
after this one is a line feed. -/
def unifyStep (c : Char) (state : List Char × Bool) : List Char × Bool :=
  if c = '\r' then
    (if state.2 then state.1 else '\n' :: state.1, false)
  else
    (c :: state.1, c == '\n')

/-- The text with every line ending as one line feed: a carriage return with a line feed after it,
or on its own, becomes a line feed. -/
def unifyLines (text : String) : String :=
  String.ofList (text.toList.foldr unifyStep ([], false)).1

end DesignTokens
