import DesignTokens.Files.Path
import DesignTokens.Naming

/-!
# The configuration of a build
-/

namespace DesignTokens

/-- What a build reads, what it builds, and where it writes. -/
structure BuildConfig where
  tokensPath : Path := .ofText "figma-tokens/$tokens.json"
  /-- Documents merged onto the tokens in order. -/
  overlays : List Path := []
  product : String := "ivy-framework"
  /-- The identifier of the product's scope. Without one the document's layout gives it. -/
  scopeId : Option String := none
  outputFolder : Path := .ofText "dist"
  namespaceName : String := "Ivy.Themes"
  strictAliases : Bool := false
  /-- Validate the document before anything is written. -/
  validate : Bool := false
  /-- Compare the versions of the manifests first. -/
  checkVersions : Bool := true
  packagePath : Path := .ofText "package.json"
  projectPath : Path := .ofText "Ivy.DesignSystem.csproj"
  deriving DecidableEq

/-- The product's name as the start of a class name. -/
def BuildConfig.classPrefix (config : BuildConfig) : String :=
  pascalCase config.product

end DesignTokens
