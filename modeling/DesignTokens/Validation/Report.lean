import DesignTokens.Reference
import DesignTokens.Validation.Color

/-!
# Validating documents

A document in the layered layout keeps a contract for a product: the source colors are colors, the
light and dark themes give values to the same colors, and theme references point at the product's
own source. `validate` lists every violation. A report is valid when no issue is an error.
-/

namespace DesignTokens

/-- The issues of a document. -/
structure Report where
  issues : List Issue

namespace Report

/-- The issues that are errors. -/
def errors (report : Report) : List Issue :=
  report.issues.filter fun issue => issue.severity = .error

/-- No issue is an error. -/
def valid (report : Report) : Bool :=
  report.errors.isEmpty

/-- An error unless the report is valid. -/
def check (report : Report) : Except Error Unit :=
  if report.valid then .ok () else .error (.invalidStructure report.errors)

end Report

namespace Validation

/-- An issue that is an error. -/
def problem (path message : String) : Issue :=
  ⟨.error, path, message⟩

/-- The value and the type of a token entry, when it is an object with both. -/
def valueAndType? (entry : Json) : Option (Json × Json) := do
  let value ← entry.field? "value"
  let type ← entry.field? "type"
  some (value, type)

/-- The issues of a source color that stands at a path. -/
def sourceIssues (path : String) (entry : Json) : List Issue :=
  match valueAndType? entry with
  | none => [problem path "source color must have 'value' and 'type'"]
  | some (value, type) =>
    let typeIssues := match type with
      | .str "color" => []
      | _ => [problem path ("expected type 'color', got " ++ type.literal)]
    let valueIssues := match value with
      | .str text =>
        if Color.isPlaceholder text || Color.isLiteral text then []
        else [problem path ("unrecognized color format " ++ Json.literalText text)]
      | _ => [problem path "value must be a string"]
    typeIssues ++ valueIssues

/-- The entry gives a literal color, whatever its form. -/
def isLiteralEntry (entry : Json) : Bool :=
  match valueAndType? entry with
  | some (.str text, _) => !Color.isPlaceholder text
  | _ => false

/-- The issues of the source colors. That none of them is a literal is a warning. -/
def sourceColorIssues (base : String) (colors : Fields Json) : List Issue :=
  let entryIssues := colors.flatMap fun entry => sourceIssues (base ++ "." ++ entry.1) entry.2
  let noLiteral := !colors.isEmpty && !colors.any fun entry => isLiteralEntry entry.2
  entryIssues ++
    if noLiteral then [⟨.warning, base, "source defines no literal color values"⟩] else []

/-- The path of the source group of a product. -/
def productPath (product : String) : String :=
  "core." ++ product

/-- The issues of a theme color that stands at a path. -/
def themeIssues (product path : String) (entry : Json) : List Issue :=
  match valueAndType? entry with
  | none => [problem path "theme color must have 'value' and 'type'"]
  | some (.str text, _) =>
    let pointsHome := match Reference.parse? text with
      | some reference => reference.scope == productPath product
      | none => false
    if !Color.isPlaceholder text || pointsHome then []
    else
      [problem path ("reference " ++ Json.literalText text ++ " must match " ++
        Reference.format (productPath product) "<name>")]
  | some _ => [problem path "value must be a string"]

/-- The issues of the source of a product. -/
def sourceGroupIssues (product : String) (scope : Fields Json) : List Issue :=
  let path := productPath product ++ ".source"
  match (scope.get? "source").bind Json.fields? with
  | none => [problem path "missing 'source' group"]
  | some source =>
    match (source.get? "color").bind Json.fields? with
    | none => [problem (path ++ ".color") "missing source colors"]
    | some colors => sourceColorIssues (path ++ ".color") colors

/-- The colors of a theme variant. -/
def variantColors? (theme : Fields Json) (variant : String) : Option (Fields Json) := do
  let body ← (theme.get? variant).bind Json.fields?
  (body.get? "color").bind Json.fields?

/-- The issues of a theme variant. -/
def variantIssues (product : String) (theme : Fields Json) (variant : String) : List Issue :=
  let base := productPath product ++ ".theme." ++ variant
  match (theme.get? variant).bind Json.fields? with
  | none => [problem base ("missing '" ++ variant ++ "' variant")]
  | some body =>
    match (body.get? "color").bind Json.fields? with
    | none => [problem (base ++ ".color") "missing theme colors"]
    | some colors =>
      colors.flatMap fun entry => themeIssues product (base ++ ".color." ++ entry.1) entry.2

/-- The names that only one of two objects has, in ascending order. -/
def namesApart (left right : Fields Json) : List String :=
  let onlyLeft := left.names.filter fun name => !right.has name
  let onlyRight := right.names.filter fun name => !left.has name
  (onlyLeft ++ onlyRight).mergeSort fun a b => a ≤ b

/-- The issue of two variants with different color keys. -/
def variantDifference (product : String) (theme : Fields Json) : List Issue :=
  match variantColors? theme "light", variantColors? theme "dark" with
  | some light, some dark =>
    match namesApart light dark with
    | [] => []
    | names =>
      [problem (productPath product ++ ".theme")
        ("light and dark color keys differ: " ++ ", ".intercalate names)]
  | _, _ => []

/-- The issues of the themes of a product. -/
def themeGroupIssues (product : String) (scope : Fields Json) : List Issue :=
  match (scope.get? "theme").bind Json.fields? with
  | none => [problem (productPath product ++ ".theme") "missing 'theme' group"]
  | some theme =>
    variantIssues product theme "light" ++ variantIssues product theme "dark" ++
      variantDifference product theme

end Validation

open Validation in
/-- Every violation of the contract of a product in a document. -/
def validate (document : Fields Json) (product : String) : Report :=
  match (document.get? "core").bind Json.fields? with
  | none => ⟨[problem "core" "missing top-level 'core' group"]⟩
  | some core =>
    match (core.get? product).bind Json.fields? with
    | none => ⟨[problem (productPath product) "missing product scope"]⟩
    | some scope => ⟨sourceGroupIssues product scope ++ themeGroupIssues product scope⟩

end DesignTokens
