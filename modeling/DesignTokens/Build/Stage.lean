import DesignTokens.Build.Config
import DesignTokens.Product
import DesignTokens.Target.ConstantUnit.Source
import DesignTokens.Target.FlatStylesheet
import DesignTokens.Target.NameModule

/-!
# The stages of a build

A build writes twelve files in a fixed order. A stage works out the files that are made from one
walk of a tree, and they are written before the next stage starts.
-/

namespace DesignTokens

/-- A file to write. -/
structure Output where
  path : Path
  text : String
  deriving DecidableEq

/-- The files of a stage, and what is reported when they are written. -/
structure Batch where
  outputs : List Output
  events : List Event := []

/-- A stage of a build. -/
abbrev Stage := Outcome Batch

namespace Stage

/-- The stage of one file with the given text. -/
def single (path : Path) (text : Outcome String) : Stage :=
  text.andThen fun text => .done { outputs := [⟨path, text⟩] }

end Stage

namespace BuildConfig

variable (config : BuildConfig)

/-- The path of an output file, given the folder and the name it has below the output folder. -/
def outputPath (folder name : String) : Path :=
  (config.outputFolder.join folder).join name

/-- An alias table, made strict when the configuration says so. -/
def aliases (table : AliasTable) : AliasTable :=
  if config.strictAliases then table.asStrict else table

/-- The stage of a stylesheet. -/
def stylesheetStage (name : String) (selector : Selector) (scope : Option Scope) (g : Group) :
    Stage :=
  .single (config.outputPath "css" name)
    ((g.stylesheet selector scope).andThen fun s => .done s.render)

/-- The stage of a flat stylesheet. -/
def flatStage (name : String) (selector : Selector) (scope : Option Scope) (table : AliasTable)
    (g : Group) : Stage :=
  .single (config.outputPath "css" name)
    ((g.flatStylesheet selector scope (some (config.aliases table))).andThen fun s =>
      .done s.render)

/-- The stage of the utility theme. -/
def themeStage (name : String) (g : Group) : Stage :=
  .single (config.outputPath "tailwind" name)
    (g.utilityTheme.andThen fun theme => .done (UtilityTheme.render theme))

/-- The stage of the two modules of token names. -/
def namesStage (g : Group) : Stage :=
  g.tokenNames.andThen fun names =>
    let m : NameModule := { names }
    .done
      { outputs :=
          [⟨config.outputPath "js" "index.js", m.script⟩,
           ⟨config.outputPath "js" "index.d.ts", m.declarations⟩]
        events := [.namesExported names.length] }

/-- The stage of a unit of constants in a class. -/
def constantsStage (className : String) (scope : Scope) (now : Moment) (g : Group) : Stage :=
  let unit : UnitConfig :=
    { className, namespaceName := config.namespaceName, scope := some scope }
  .single (config.outputPath "csharp" (className ++ ".cs"))
    ((g.constantUnit unit now).andThen fun u => .done u.render)

/-- The stage of the whole document. -/
def documentStage (document : Fields Json) : Stage :=
  .single (config.outputPath "tokens" "index.json")
    (.done ((Json.obj document).pretty .unicode))

/-- The stages of a build, in the order in which they are carried out. -/
def stages (document : Fields Json) (now : Moment) : List Stage :=
  let tokens := ProductTokens.extract document config.product config.scopeId
  let scope := some tokens.scope
  let product := config.product
  [config.stylesheetStage (product ++ ".css") .root none tokens.source,
   config.stylesheetStage "light.css" .root scope tokens.light,
   config.stylesheetStage "dark.css" .dark scope tokens.dark,
   config.flatStage (product ++ "-flat.css") .root none .root tokens.source,
   config.flatStage "dark-flat.css" .dark scope .dark tokens.dark,
   config.themeStage (product ++ ".js") tokens.source,
   config.namesStage tokens.source,
   config.constantsStage (config.classPrefix ++ "Tokens") tokens.scope now tokens.source,
   config.constantsStage "LightThemeTokens" tokens.scope now tokens.light,
   config.constantsStage "DarkThemeTokens" tokens.scope now tokens.dark,
   config.documentStage document]

end BuildConfig

end DesignTokens
