import DesignTokens.Fields
import DesignTokens.Number.Binary64

/-!
# Documents

A document is a JSON value. Objects keep their fields in order, integers are unbounded and kept
apart from floating-point numbers.
-/

namespace DesignTokens

/-- A JSON value. -/
inductive Json where
  | null
  | bool (b : Bool)
  | int (n : Int)
  | real (x : Binary64)
  | str (s : String)
  | arr (items : List Json)
  | obj (fields : List (String × Json))
  deriving Inhabited

namespace Json

/-- The fields of an object. -/
def fields? : Json → Option (Fields Json)
  | .obj fields => some fields
  | _ => none

/-- The text of a string. -/
def str? : Json → Option String
  | .str s => some s
  | _ => none

/-- The value is an object. -/
def isObject (x : Json) : Bool :=
  x.fields?.isSome

/-- The value under a name of an object, and nothing for any other value. -/
def field? (x : Json) (name : String) : Option Json :=
  x.fields?.bind fun fields => fields.get? name

/-- The value counts as absent where a default may take its place: null, false, zero, and empty
strings, lists and objects. -/
def isBlank : Json → Bool
  | .null => true
  | .bool b => !b
  | .int n => n == 0
  | .real x => x.isZero
  | .str s => s.isEmpty
  | .arr items => items.isEmpty
  | .obj fields => fields.isEmpty

/-- The name of the kind of value. -/
def kindName : Json → String
  | .null => "NoneType"
  | .bool _ => "bool"
  | .int _ => "int"
  | .real _ => "float"
  | .str _ => "str"
  | .arr _ => "list"
  | .obj _ => "dict"

/-- The value that a key path leads to, through objects only. -/
def at? : Json → List String → Option Json
  | x, [] => some x
  | x, key :: path => (x.field? key).bind fun child => child.at? path
  termination_by structural _ path => path

mutual

/-- No object in the value repeats a name. -/
def WellFormed : Json → Prop
  | .arr items => AllWellFormed items
  | .obj fields => Fields.WellFormed fields ∧ FieldsWellFormed fields
  | _ => True

/-- Every value of a list is well formed. -/
def AllWellFormed : List Json → Prop
  | [] => True
  | x :: rest => x.WellFormed ∧ AllWellFormed rest

/-- Every value of a list of fields is well formed. -/
def FieldsWellFormed : List (String × Json) → Prop
  | [] => True
  | (_, x) :: rest => x.WellFormed ∧ FieldsWellFormed rest

end

end Json

end DesignTokens
