import DesignTokens.Build.Stage
import DesignTokens.Overlay
import DesignTokens.Validation.Report
import DesignTokens.Version.Manifest

/-!
# Running a build

A build compares versions, loads and merges documents, validates, extracts the product's trees, and
carries out its stages. It stops at the first error, and the files written by then stay.
-/

namespace DesignTokens

/-- The paths that a build wrote, in order, and the number of source tokens. -/
structure BuildResult where
  written : List Path
  tokenCount : Nat
  deriving DecidableEq

namespace Files

variable {m : Type → Type} [Monad m]

/-- The fields of a token document. `name` is what the document is called in errors. -/
def loadDocument (files : Files m) (path : Path) (name : String) : Job m (Fields Json) :=
  Job.attempt (files.readObject path) (.ofDocument (.tokenFile name))

/-- The fields of several token documents. -/
def loadDocuments (files : Files m) : List Path → Job m (List (Fields Json))
  | [] => return []
  | path :: rest => do
    let document ← files.loadDocument path path.text
    let documents ← files.loadDocuments rest
    return document :: documents

/-- The token document of a build, with its overlays merged onto it. -/
def loadTokens (files : Files m) (config : BuildConfig) : Job m (Fields Json) := do
  let document ← files.loadDocument config.tokensPath config.tokensPath.text
  if config.overlays.isEmpty then
    return document
  else
    let layers ← files.loadDocuments config.overlays
    Job.note (.overlaysMerged config.overlays.length)
    return overlayAll (document :: layers)

/-- Report events in order. -/
def report : List Event → Job m Unit
  | [] => return ()
  | event :: rest => do
    Job.note event
    report rest

/-- Report every issue of a document, and fail unless it is valid. -/
def checkDocument (document : Fields Json) (product : String) : Job m Unit := do
  let issues := validate document product
  report (issues.issues.map .issueFound)
  Job.ofOutcome (.ofExcept issues.check)

/-- Write outputs in order, and give their paths. -/
def writeOutputs (files : Files m) : List Output → Job m (List Path)
  | [] => return []
  | output :: rest => do
    files.writeOutput output.path output.text (.ofFile (.outputFile output.path.text))
    let written ← files.writeOutputs rest
    return output.path :: written

/-- Carry out stages in order, and give the paths of the files written. -/
def carryOut (files : Files m) : List Stage → Job m (List Path)
  | [] => return []
  | stage :: rest => do
    let batch ← Job.ofOutcome stage
    let written ← files.writeOutputs batch.outputs
    report batch.events
    let later ← files.carryOut rest
    return written ++ later

/-- Run the build of a configuration. `now` is the moment of the generated timestamps. -/
def build (files : Files m) (config : BuildConfig) (now : Moment) : Job m BuildResult := do
  Job.note .buildStarted
  if config.checkVersions then
    let _ ← files.ensureSynchronized config.packagePath config.projectPath
      config.projectPath.text
  let document ← files.loadTokens config
  if config.validate then
    checkDocument document config.product
  let tokens := ProductTokens.extract document config.product config.scopeId
  let entries ← Job.ofOutcome (tokens.source.walk .qualified "")
  let written ← files.carryOut (config.stages document now)
  Job.note (.buildFinished written.length config.outputFolder.text)
  return ⟨written, entries.length⟩

end Files

end DesignTokens
