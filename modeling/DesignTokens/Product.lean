import DesignTokens.Reference

/-!
# The trees of a product

A document holds the source tokens and the themes of products. In the layered layout they stand
under `core.<product>`. In the flat layout the source stands under the product and the themes
beside it. A source without an entry of its own is the product's own tokens.
-/

namespace DesignTokens

/-- The source and theme trees of one product, and the scope of its references. -/
structure ProductTokens where
  source : Group
  light : Group
  dark : Group
  scope : Scope

/-- The key of layered products. -/
def coreKey : String := "core"

/-- The key of source tokens in a product. -/
def sourceKey : String := "source"

namespace ProductTokens

/-- A product's tokens, its themes, and the identifier of its scope. -/
structure Placement where
  tokens : Json
  themes : Json
  scopeId : String

/-- The value under a name, or an empty object when the value is absent or blank. -/
def fieldOrEmpty (fields : Fields Json) (name : String) : Json :=
  match fields.get? name with
  | some x => if x.isBlank then .obj [] else x
  | none => .obj []

/-- The tokens of a layered product. -/
def layered? (document : Fields Json) (product : String) : Option (Fields Json) := do
  let core ← (document.get? coreKey).bind Json.fields?
  (core.get? product).bind Json.fields?

/-- Where a document keeps the tokens of a product. -/
def placement (document : Fields Json) (product : String) : Placement :=
  match layered? document product with
  | some tokens =>
    ⟨.obj tokens, fieldOrEmpty tokens themeKey, coreKey ++ "." ++ product⟩
  | none =>
    ⟨fieldOrEmpty document product, fieldOrEmpty document themeKey, product⟩

/-- The fields of an object, and none for any other value. -/
def objectFields (x : Json) : Fields Json :=
  x.fields?.getD []

/-- The source fields among a product's tokens. -/
def sourceFields (tokens : Json) : Fields Json :=
  let fields := objectFields tokens
  match fields.get? sourceKey with
  | some source => objectFields source
  | none => fields

/-- The tree that wraps a theme variant. -/
def themeTree (variant : String) (themes : Json) : Group :=
  let body := objectFields ((themes.field? variant).getD .null)
  Group.ofFields [(themeKey, .obj [(variant, .obj body)])]

/-- The trees of a product. An identifier that is given and not empty replaces the one that the
layout gives to the scope. -/
def extract (document : Fields Json) (product : String) (scopeId : Option String) :
    ProductTokens :=
  let place := placement document product
  let source := Group.ofFields ((sourceFields place.tokens).without [themeKey])
  let given := scopeId.getD ""
  { source
    light := themeTree "light" place.themes
    dark := themeTree "dark" place.themes
    scope := ⟨if given.isEmpty then place.scopeId else given, source⟩ }

end ProductTokens

end DesignTokens
