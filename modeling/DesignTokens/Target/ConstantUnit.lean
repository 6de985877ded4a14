import DesignTokens.Target.Stylesheet

/-!
# Units of constants

A unit gives every token of a tree a constant with its resolved value. Constants are grouped into
classes by the first segment of their path, the category. The unit lists all token names and has a
table from names to constants. Two constants of one category with the same name, and two categories
with the same class name, are refused.
-/

namespace DesignTokens

namespace Identifier

/-- The character may occur in an identifier. -/
def isIdentifierChar (c : Char) : Bool :=
  c.isAlphanum || c == '_'

/-- The character itself, or an underscore where it may not occur. -/
def replaceInvalid (c : Char) : Char :=
  if isIdentifierChar c then c else '_'

/-- The characters with an underscore in front when they are none or start with a digit. -/
def guardStart : List Char → List Char
  | [] => ['_']
  | c :: rest => if c.isDigit then '_' :: c :: rest else c :: rest

end Identifier

/-- The identifier of a hyphenated name. -/
def identifier (name : String) : String :=
  String.ofList (Identifier.guardStart ((pascalCase name).toList.map Identifier.replaceInvalid))

/-- The characters before and after the first hyphen. -/
def cutAtHyphen : List Char → Option (List Char × List Char)
  | [] => none
  | c :: rest =>
    if c = '-' then some ([], rest)
    else (cutAtHyphen rest).map fun parts => (c :: parts.1, parts.2)

/-- The category of a path and the name in it. A path of one segment belongs to the colors. -/
def splitCategory (path : String) : String × String :=
  match cutAtHyphen path.toList with
  | some (category, name) => (String.ofList category, String.ofList name)
  | none => (colorKey, path)

/-- A character as it stands in a string literal. -/
def escapeLiteralChar (c : Char) : List Char :=
  if c = '\\' ∨ c = '"' then ['\\', c] else [c]

/-- A text as it stands in a string literal. -/
def escapeLiteral (text : String) : String :=
  String.ofList (text.toList.flatMap escapeLiteralChar)

/-- A text in double quotes. -/
def quoteLiteral (text : String) : String :=
  "\"" ++ escapeLiteral text ++ "\""

/-- The constant of a token: its path, its value, and the name it has in its class. -/
structure Constant where
  path : String
  value : Json
  name : String
  deriving DecidableEq

namespace Constant

/-- The category that the path belongs to. -/
def category (k : Constant) : String :=
  (splitCategory k.path).1

/-- The constant of a token with a value. -/
def ofEntry (resolved : Entry × Json) : Constant :=
  ⟨resolved.1.path, resolved.2, identifier (splitCategory resolved.1.path).2⟩

/-- The constants have the same category and name. -/
def clashes (k l : Constant) : Bool :=
  k.name == l.name && k.category == l.category

end Constant

/-- The class of a category. -/
structure ConstantClass where
  category : String
  constants : List Constant
  deriving DecidableEq

/-- The name of a class. -/
def ConstantClass.name (c : ConstantClass) : String :=
  identifier c.category

namespace ConstantClass

/-- The classes with a constant added to the one of its category. A new category comes last. -/
def insert : List ConstantClass → Constant → List ConstantClass
  | [], k => [⟨k.category, [k]⟩]
  | c :: rest, k =>
    if c.category = k.category then { c with constants := c.constants ++ [k] } :: rest
    else c :: insert rest k

/-- The constants in classes, where one that clashes with an earlier one is refused. `earlier`
holds the constants before these. -/
def gather (classes : List ConstantClass) (earlier : List Constant) :
    List Constant → Except Error (List ConstantClass)
  | [] => .ok classes
  | k :: rest =>
    match earlier.find? k.clashes with
    | some other => .error (.duplicateName k.category k.name other.path k.path)
    | none => gather (insert classes k) (k :: earlier) rest

/-- An error when a class has the name of an earlier one. `owner` is the enclosing class. -/
def checkNames (owner : String) (earlier : List ConstantClass) :
    List ConstantClass → Except Error Unit
  | [] => .ok ()
  | c :: rest =>
    match earlier.find? fun other => other.name == c.name with
    | some other => .error (.duplicateName owner c.name other.category c.category)
    | none => checkNames owner (c :: earlier) rest

/-- The classes of constants, in the order in which their categories first occur. No constants
give one empty class of colors. -/
def group (owner : String) (constants : List Constant) : Except Error (List ConstantClass) := do
  let classes ← gather [] [] constants
  checkNames owner [] classes
  return if classes.isEmpty then [⟨colorKey, []⟩] else classes

end ConstantClass

/-- What names a unit and fixes its values. -/
structure UnitConfig where
  className : String := "DesignSystemTokens"
  namespaceName : String := "Ivy.Themes"
  scope : Option Scope := none

/-- A unit of constants. -/
structure ConstantUnit where
  namespaceName : String
  className : String
  timestamp : String
  constants : List Constant
  classes : List ConstantClass
  deriving DecidableEq

namespace ConstantUnit

/-- The names that the unit lists. -/
def names (u : ConstantUnit) : List String :=
  u.constants.map Constant.path

/-- A row of the table: the name of a token, and the class and name of its constant. -/
structure Row where
  path : String
  className : String
  name : String
  deriving DecidableEq

/-- The rows of the table, class by class. -/
def rows (u : ConstantUnit) : List Row :=
  u.classes.flatMap fun c => c.constants.map fun k => ⟨k.path, c.name, k.name⟩

end ConstantUnit

namespace Group

/-- The constants of a tree, in the order of its walk. -/
def constants (scope : Option Scope) (g : Group) : Outcome (List Constant) :=
  (g.resolved .collapsed scope).andThen fun resolved =>
    .done (resolved.map Constant.ofEntry)

/-- The classes of the constants of a tree. -/
def constantClasses (config : UnitConfig) (g : Group) : Outcome (List ConstantClass) :=
  (g.constants config.scope).andThen fun constants =>
    .ofExcept (ConstantClass.group config.className constants)

/-- The unit of a tree, generated at a moment. -/
def constantUnit (config : UnitConfig) (generated : Moment) (g : Group) : Outcome ConstantUnit :=
  (g.constants config.scope).andThen fun constants =>
    (Outcome.ofExcept (ConstantClass.group config.className constants)).andThen fun classes =>
      (Outcome.ofExcept (generated.timestamp.mapError .calendar)).andThen fun timestamp =>
        .done ⟨config.namespaceName, config.className, timestamp, constants, classes⟩

end Group

end DesignTokens
