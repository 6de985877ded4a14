import DesignTokens.Json.Literal

/-!
# Diagnoses

A diagnosis is what an error says: a message, and details by name. Each function below is the
diagnosis of one kind of error. What an error is about is shown in the message and kept in the
details, where a value that is no text stays what it is.
-/

namespace DesignTokens

/-- A message and details. -/
structure Diagnosis where
  message : Json
  details : Json := .obj []

namespace Diagnosis

/-- The message, followed by the details when there are any. -/
def text (d : Diagnosis) : String :=
  if d.details.isBlank then d.message.display
  else d.message.display ++ " | Details: " ++ d.details.display

/-- A diagnosis with nothing but a message. -/
def ofText (message : String) : Diagnosis :=
  { message := .str message }

/-- A diagnosis with details that are given, where blank ones count as none. -/
def withDetails (message details : Json) : Diagnosis :=
  { message, details := if details.isBlank then .obj [] else details }

/-- A document that is not an object. A source that is not blank is a detail. -/
def invalidDocument (reason source : Json) : Diagnosis :=
  { message := .str ("Invalid token document: " ++ reason.display)
    details := .obj (("reason", reason) :: if source.isBlank then [] else [("source", source)]) }

/-- Two tokens of one tree with the same path. -/
def duplicatePath (path : Json) : Diagnosis :=
  { message := .str ("Duplicate token path '" ++ path.display ++ "'")
    details := .obj [("path", path)] }

/-- Two paths of one category with the same generated name. -/
def duplicateName (category name first second : Json) : Diagnosis :=
  { message := .str ("Tokens '" ++ first.display ++ "' and '" ++ second.display ++
      "' both generate '" ++ name.display ++ "' in category '" ++ category.display ++ "'")
    details := .obj [("category", category), ("property_name", name),
      ("paths", .arr [first, second])] }

/-- A reference to a scope other than the one in use. -/
def scopeMismatch (reference expected actual : Json) : Diagnosis :=
  { message := .str ("Reference '" ++ reference.display ++ "' points at scope '" ++
      actual.display ++ "', but resolution scope is '" ++ expected.display ++ "'")
    details := .obj [("reference", reference), ("expected_scope", expected),
      ("actual_scope", actual)] }

/-- A document that violates the contract. -/
def invalidStructure (issues : List String) : Diagnosis :=
  let count := issues.length
  { message := .str ("Token document failed validation with " ++ toString count ++
      (if count = 1 then " issue" else " issues"))
    details := .obj [("issues", .arr (issues.map .str))] }

/-- A value that is not a version number. -/
def invalidVersion (version : Json) : Diagnosis :=
  { message := .str ("Invalid version format '" ++ version.display ++
      "'. Must be MAJOR.MINOR.PATCH (e.g., 1.0.0)")
    details := .obj [("version", version)] }

/-- Two manifests with different versions. -/
def versionMismatch (npm nuget : Json) : Diagnosis :=
  { message := .str ("Version mismatch detected (npm: " ++ npm.display ++ ", NuGet: " ++
      nuget.display ++ ")")
    details := .obj [("npm", npm), ("nuget", nuget)] }

/-- A message about a path with a cause. -/
def about (message : String) (path cause : Json) : Diagnosis :=
  { message := .str (message ++ path.display ++ ": " ++ cause.display)
    details := .obj [("path", path), ("cause", cause)] }

/-- A manifest that cannot be read or written. -/
def manifest (path cause : Json) : Diagnosis :=
  about "Manifest error for " path cause

/-- A token document that cannot be loaded. -/
def tokenFile (path cause : Json) : Diagnosis :=
  about "Cannot load tokens from " path cause

/-- An output file that cannot be written. -/
def outputFile (path cause : Json) : Diagnosis :=
  about "Failed to write " path cause

end Diagnosis

end DesignTokens
