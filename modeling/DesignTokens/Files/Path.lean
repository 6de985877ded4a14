/-!
# Paths

A path is an anchor and parts. Empty parts and `.` are dropped when a text is read, `..` is kept,
and a path that is left with nothing is the folder in use, written `.`.
-/

namespace DesignTokens

/-- A file path. The anchor is empty for a path that starts at the folder in use. -/
structure Path where
  anchor : String
  parts : List String
  deriving DecidableEq

namespace Path

/-- The anchor that a text starts with: exactly two slashes are an anchor of their own. -/
def anchorOf : List Char → String
  | '/' :: '/' :: '/' :: _ => "/"
  | '/' :: '/' :: _ => "//"
  | '/' :: _ => "/"
  | _ => ""

/-- The part names something. -/
def isPart (part : String) : Bool :=
  part != "" && part != "."

/-- The path that a text denotes. -/
def ofText (text : String) : Path :=
  let cs := text.toList
  { anchor := anchorOf cs
    parts := ((cs.splitOn '/').map String.ofList).filter isPart }

/-- The path as a text. -/
def text (path : Path) : String :=
  if path.anchor = "" ∧ path.parts = [] then "."
  else path.anchor ++ "/".intercalate path.parts

/-- The text of the path holds a null character. -/
def hasNull (path : Path) : Bool :=
  path.text.toList.contains '\x00'

/-- The path below `base` that a text denotes. An anchored text stands for itself. -/
def join (base : Path) (text : String) : Path :=
  let child := ofText text
  if child.anchor = "" then { base with parts := base.parts ++ child.parts } else child

/-- The path without its last part. -/
def parent (path : Path) : Path :=
  { path with parts := path.parts.dropLast }

end Path

end DesignTokens
