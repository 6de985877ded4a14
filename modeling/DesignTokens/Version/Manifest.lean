import DesignTokens.Files.Access
import DesignTokens.Json.Printer
import DesignTokens.Version.Number

/-!
# Versions in manifests

A package is described by two manifests, a document with a version field and a project file with a
version element. `checkVersions` reads both versions, `ensureSynchronized` refuses different ones,
and `syncVersions` writes one version into both. Both manifests are read, and the version is
checked, before anything is written.
-/

namespace DesignTokens

/-- The versions of two manifests. -/
structure VersionStatus where
  npm : Option String
  nuget : Option String
  deriving DecidableEq

/-- Both manifests give the same version. -/
def VersionStatus.synchronized (status : VersionStatus) : Bool :=
  status.npm.isSome && status.npm == status.nuget

/-- The version field of a package document. -/
def versionField (document : Fields Json) : Option String :=
  (document.get? "version").bind Json.str?

namespace Files

variable {m : Type → Type} [Monad m]

/-- The document of a package manifest. -/
def packageDocument (files : Files m) (path : Path) : Job m (Fields Json) :=
  Job.attempt (files.readObject path) (.ofDocument (.manifest path.text))

/-- The text of a project manifest. -/
def projectText (files : Files m) (path : Path) : Job m String :=
  Job.attempt (files.readText path) (.ofDocument (.manifest path.text))

/-- The version of a package manifest. -/
def packageVersion (files : Files m) (path : Path) : Job m (Option String) := do
  return versionField (← files.packageDocument path)

/-- The version of a project manifest. -/
def projectVersion (files : Files m) (path : Path) : Job m (Option String) := do
  return Version.ofProject? (← files.projectText path)

/-- The versions of both manifests. -/
def checkVersions (files : Files m) (package project : Path) : Job m VersionStatus := do
  let npm ← files.packageVersion package
  let nuget ← files.projectVersion project
  return ⟨npm, nuget⟩

/-- The versions of both manifests, which must agree when the project gives one. `projectName` is
what the project manifest is called in the report that it gives none. -/
def ensureSynchronized (files : Files m) (package project : Path) (projectName : String) :
    Job m VersionStatus := do
  let status ← files.checkVersions package project
  match status.nuget with
  | none =>
    Job.note (.versionAbsent projectName)
    return status
  | some version =>
    if status.synchronized then
      Job.note (.versionsAgree version)
      return status
    else
      Job.fail (.versionMismatch status.npm status.nuget)

/-- The text of a package manifest. -/
def packageText (document : Fields Json) : String :=
  (Json.obj document).pretty .ascii ++ "\n"

/-- Write a manifest and report its new version. -/
def updateManifest (files : Files m) (path : Path) (text version : String) : Job m Unit := do
  Job.attempt (files.write path text) fun fault =>
    .ofDocument (.manifest path.text) (.access fault)
  Job.note (.manifestUpdated path.text version)

/-- Write a version into both manifests. -/
def syncVersions (files : Files m) (version : String) (package project : Path) :
    Job m VersionStatus := do
  if !Version.isValid version then
    Job.fail (.invalidVersion version)
  let document ← files.packageDocument package
  let text ← files.projectText project
  files.updateManifest package (packageText (document.insert "version" (.str version))) version
  files.updateManifest project (Version.putInProject version text) version
  files.checkVersions package project

end Files

end DesignTokens
