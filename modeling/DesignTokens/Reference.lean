import DesignTokens.Text.WordChar
import DesignTokens.Tree.Walk

/-!
# References

A reference is a value of the form `{<scope>.source.color.<name>}`. Its scope is a dotted sequence
of segments of ASCII letters, digits and hyphens, and its name is made of word characters and
hyphens. A `Scope` holds the colors that references to it stand for. Resolution replaces a
reference by the color as it is written there, once.
-/

namespace DesignTokens

/-- A parsed reference. -/
structure Reference where
  raw : String
  scope : String
  name : String
  deriving DecidableEq

namespace Reference

/-- The character may occur in a segment of a scope. -/
def isSegmentChar (c : Char) : Bool :=
  c.isAlphanum || c == '-'

/-- The character may occur in a name. -/
def isNameChar (c : Char) : Bool :=
  Text.isWordChar c || c == '-'

/-- The characters are a segment of a scope. -/
def isSegment (cs : List Char) : Bool :=
  !cs.isEmpty && cs.all isSegmentChar

/-- The characters are a name. -/
def isName (cs : List Char) : Bool :=
  !cs.isEmpty && cs.all isNameChar

/-- The segments are those of a scope. -/
def isScope (segments : List (List Char)) : Bool :=
  !segments.isEmpty && segments.all isSegment

/-- The characters between an opening brace in front and a closing brace at the end. -/
def unbrace? : List Char → Option (List Char)
  | '{' :: rest => if rest.getLast? = some '}' then some rest.dropLast else none
  | _ => none

/-- The segments of the scope and the name of a reference, given what stands in its braces. -/
def parts? (inside : List Char) : Option (List (List Char) × List Char) :=
  match (inside.splitOn '.').reverse with
  | name :: color :: source :: scope =>
    if color = "color".toList ∧ source = "source".toList ∧ isName name ∧ isScope scope.reverse then
      some (scope.reverse, name)
    else none
  | _ => none

/-- The reference that a value is, and nothing for a literal. -/
def parse? (value : String) : Option Reference := do
  let inside ← unbrace? value.toList
  let (scope, name) ← parts? inside
  some ⟨value, String.ofList (['.'].intercalate scope), String.ofList name⟩

/-- The value of a reference with the given scope and name. -/
def format (scope name : String) : String :=
  "\x7b" ++ scope ++ ".source.color." ++ name ++ "\x7d"

/-- The value is a reference. -/
def recognizes (value : String) : Bool :=
  (parse? value).isSome

end Reference

/-- What references are resolved against: an identifier and the tree of source tokens. -/
structure Scope where
  id : String
  tokens : Group

namespace Scope

/-- The identifier of a scope that accepts every reference. -/
def anyId : String := "*"

/-- The scope that accepts every reference. -/
def wildcard (tokens : Group) : Scope :=
  ⟨anyId, tokens⟩

/-- The group in which names are looked up: the colors when there are any, else the tree. -/
def colors (scope : Scope) : Group :=
  match scope.tokens.group? colorKey with
  | some (child :: rest) => child :: rest
  | _ => scope.tokens

/-- The scope accepts references to this identifier. -/
def accepts (scope : Scope) (id : String) : Bool :=
  scope.id == anyId || scope.id == id

/-- The color that a node gives to a name: a token its value unless it is null, and a raw text
itself. -/
def color? : Node → Option Json
  | .token t =>
    match t.value with
    | .null => none
    | value => some value
  | .raw (.str s) => some (.str s)
  | _ => none

/-- The color under a name. -/
def lookup (scope : Scope) (name : String) : Option Json :=
  (scope.colors.child? name).bind color?

end Scope

/-- The value that a token value stands for. Without a scope, and when it is a literal or names
no color, it stands for itself. A reference to another scope is an error. -/
def resolve (scope : Option Scope) (value : Json) : Outcome Json :=
  match scope, value.str?.bind Reference.parse? with
  | some scope, some reference =>
    if scope.accepts reference.scope then
      match scope.lookup reference.name with
      | some color => .done color
      | none =>
        (Outcome.note (.unresolved reference.raw scope.id)).andThen fun _ => .done value
    else
      .fail (.scopeMismatch reference.raw scope.id reference.scope)
  | _, _ => .done value

/-- The entries of a walk together with the values that their values stand for. -/
def resolveAll (scope : Option Scope) : List Entry → Outcome (List (Entry × Json))
  | [] => .done []
  | e :: rest =>
    (resolve scope e.token.value).andThen fun value =>
      (resolveAll scope rest).andThen fun resolved => .done ((e, value) :: resolved)

/-- Every token of a tree with its derived path and the value that its value stands for. -/
def Group.resolved (style : PathStyle) (scope : Option Scope) (g : Group) :
    Outcome (List (Entry × Json)) :=
  (g.walk style "").andThen fun entries => resolveAll scope entries

end DesignTokens
