import DesignTokens.Target.UtilityTheme

/-!
# Modules of token names

Two modules list the token names of a tree in collapsed naming: declarations with the union of all
names, and a run-time map from each name to the reference that reads its custom property.
-/

namespace DesignTokens

/-- The title of modules that are given no other one. -/
def NameModule.defaultTitle : String := "Ivy Design System"

/-- The token names of a tree and the title of the modules that list them. -/
structure NameModule where
  title : String := NameModule.defaultTitle
  names : List String

namespace NameModule

/-- A character as it stands between single quotes. -/
def escapeQuoted (c : Char) : List Char :=
  if c = '\\' ∨ c = '\'' then ['\\', c] else [c]

/-- A name in single quotes. -/
def quote (name : String) : String :=
  String.ofList ('\'' :: (name.toList.flatMap escapeQuoted ++ ['\'']))

/-- The map from names to the references that read them. -/
def tokenMap (names : List String) : Fields Json :=
  Fields.ofPairs (names.map fun name => (name, .str (variableReference name)))

/-- Lines, each with a line feed at its end. -/
def unlines (lines : List String) : String :=
  String.join (lines.map (· ++ "\n"))

/-- The union of the names: one member on each line, or the empty type. -/
def union (names : List String) : String :=
  if names.isEmpty then " never"
  else String.join (names.map fun name => "\n  | " ++ quote name)

/-- The module of declarations. -/
def declarations (m : NameModule) : String :=
  unlines
    ["/**",
     " * Design token names from " ++ m.title,
     " * Autocomplete-friendly type for accessing design tokens",
     " */",
     "export type TokenName =" ++ union m.names ++ ";",
     "",
     "/**",
     " * All design tokens as a key-value map",
     " * Keys are token names, values are CSS variable references",
     " */",
     "export const tokens: Record<TokenName, string>;",
     "",
     "/**",
     " * Default export with all tokens",
     " */",
     "export default tokens;"]

/-- The module with the run-time map. -/
def script (m : NameModule) : String :=
  unlines
    ["/**",
     " * " ++ m.title ++ " - Design Tokens",
     " * Auto-generated token exports",
     " */",
     "export const tokens = " ++ (Json.obj (tokenMap m.names)).pretty .unicode ++ ";",
     "",
     "export default tokens;"]

end NameModule

/-- The token names of a tree, in the order of its walk. -/
def Group.tokenNames (g : Group) : Outcome (List String) :=
  (g.walk .collapsed "").andThen fun entries => .done (entries.map Entry.path)

end DesignTokens
