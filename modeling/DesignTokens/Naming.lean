import DesignTokens.Text.Case

/-!
# Names

A derived path joins keys with hyphens. From a path come the capitalized-word identifier, in which
every word between hyphens starts with a capital, and from an identifier the hyphenated name, in
which every inner capital starts a new word.
-/

namespace DesignTokens

/-- A key below a hyphen-joined path. -/
def joinPath (path key : String) : String :=
  if path = "" then key else path ++ "-" ++ key

/-- A key below a dotted path. -/
def joinDotted (path key : String) : String :=
  if path = "" then key else path ++ "." ++ key

/-- The capitalized-word identifier of a hyphenated name. -/
def pascalCase (name : String) : String :=
  String.ofList ((name.toList.splitOn '-').flatMap Text.capitalize)

/-- The characters with a hyphen before every ASCII capital. -/
def hyphenate (cs : List Char) : List Char :=
  cs.flatMap fun c => if c.isUpper then ['-', c] else [c]

/-- The hyphenated name of a capitalized-word identifier, in lower case. -/
def kebabCase (identifier : String) : String :=
  match identifier.toList with
  | [] => ""
  | c :: rest => Text.lower (String.ofList (c :: hyphenate rest))

end DesignTokens
