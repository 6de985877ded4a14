import DesignTokens.Outcome
import DesignTokens.Tree.Basic

/-!
# Trees and documents

`Group.ofJson` reads the tree of a document, and `Group.toJson` writes the document of a tree. An
object whose value is a text or a number and whose type is a text is a token. Any other object is
a group. The value of a token is a text: a number is read as its numeral.
-/

namespace DesignTokens

namespace Token

/-- The text of a token value, when the value is a text or a number. -/
def valueText? : Json → Option String
  | .str s => some s
  | .int n => some (toString n)
  | .real x => some x.numeral
  | _ => none

/-- The fields that have a place of their own in a token. -/
def ownFields : List String :=
  ["value", "type", "description"]

/-- The description among the fields of an object. One that is no text does not count. -/
def descriptionIn (fields : Fields Json) : Json :=
  match fields.get? "description" with
  | some (.str text) => .str text
  | _ => .null

/-- The token that the fields of an object describe. -/
def ofFields? (fields : Fields Json) : Option Token := do
  let value ← (fields.get? "value").bind valueText?
  let type ← (fields.get? "type").bind Json.str?
  some
    { value := .str value
      type := .str type
      description := descriptionIn fields
      extra := fields.without ownFields }

/-- The value under a name that must be there. -/
def required (fields : Fields Json) (name : String) : Except Error Json :=
  match fields.get? name with
  | some x => .ok x
  | none => .error (.missingKey (.str name))

/-- The text of any value: a value that is neither a text nor a number is taken as its literal. -/
def anyText (x : Json) : String :=
  (valueText? x).getD x.literal

/-- The token of fields that are taken to describe one, whatever the kinds of their values. -/
def ofAnyFields (fields : Fields Json) : Except Error Token := do
  let value ← required fields "value"
  let type ← required fields "type"
  return {
    value := .str (anyText value)
    type
    description := descriptionIn fields
    extra := fields.without ownFields }

/-- The token that a value describes. -/
def ofJson? (x : Json) : Option Token :=
  x.fields?.bind ofFields?

/-- The value describes a token. -/
def describedBy (x : Json) : Bool :=
  (ofJson? x).isSome

/-- The fields of a token: its own fields, then the extra ones. -/
def toFields (t : Token) : Fields Json :=
  let own : Fields Json := [("value", t.value), ("type", t.type)]
  let described := match t.description with
    | .null => own
    | description => own ++ [("description", description)]
  Fields.insertAll described t.extra

/-- The object of a token. -/
def toJson (t : Token) : Json :=
  .obj t.toFields

end Token

mutual

/-- The node of a value. -/
def Node.ofJson : Json → Node
  | .obj fields =>
    match Token.ofFields? fields with
    | some t => .token t
    | none => .group (Group.ofFields fields)
  | x => .raw x

/-- The children that the fields of an object describe. -/
def Group.ofFields : List (String × Json) → List (String × Node)
  | [] => []
  | (key, x) :: rest => (key, Node.ofJson x) :: Group.ofFields rest

end

/-- The tree of a document. A document that is not an object is an error. -/
def Group.ofJson : Json → Except Error Group
  | .obj fields => .ok (Group.ofFields fields)
  | x => .error (.notADocument x.kindName)

mutual

/-- The value of a node. -/
def Node.toJson : Node → Json
  | .token t => t.toJson
  | .group children => .obj (Group.toFields children)
  | .raw x => x

/-- The fields of a group. -/
def Group.toFields : List (String × Node) → List (String × Json)
  | [] => []
  | (key, node) :: rest => (key, node.toJson) :: Group.toFields rest

end

/-- The document of a tree. -/
def Group.toJson (g : Group) : Json :=
  .obj (Group.toFields g)

/-- The tokens have the same value, type, description and extra fields. -/
def Token.same (t u : Token) : Bool :=
  t.value.same u.value && t.type.same u.type && t.description.same u.description &&
    (Json.obj t.extra).same (.obj u.extra)

mutual

/-- The nodes are the same up to the order of keys. -/
def Node.same : Node → Node → Bool
  | .token t, other => match other with
    | .token u => t.same u
    | _ => false
  | .group children, other => match other with
    | .group others => children.length == others.length && Group.sameChildren children others
    | _ => false
  | .raw x, other => match other with
    | .raw y => x.same y
    | _ => false

/-- Every child is the same as the child under its key among the others. -/
def Group.sameChildren : List (String × Node) → Group → Bool
  | [], _ => true
  | (key, node) :: rest, others =>
    (match Fields.get? others key with
      | some other => node.same other
      | none => false) && Group.sameChildren rest others

end

/-- The groups are the same up to the order of keys. -/
def Group.same (g h : Group) : Bool :=
  (Node.group g).same (.group h)

end DesignTokens
