import DesignTokens.Proofs.Files.Along
import DesignTokens.Version.Manifest

/-!
# Reading manifests

Comparing versions reads both manifests and does nothing else. Writing a version goes on to that
once the version is accepted and both manifests are written.
-/

namespace DesignTokens

namespace Files

variable {σ : Type} {files : Files (StateM σ)}

/-- Both versions are read one after the other. -/
theorem checkVersions_eq (package project : Path) :
    files.checkVersions package project =
      files.packageDocument package >>= fun document =>
        files.projectText project >>= fun text =>
          pure ⟨versionField document, Version.ofProject? text⟩ := by
  simp only [checkVersions, packageVersion, projectVersion, bind_assoc, pure_bind]

/-- Reading both versions reports nothing. -/
theorem silent_checkVersions (package project : Path) :
    Job.Silent (files.checkVersions package project) := by
  rw [checkVersions_eq]
  exact (Job.silent_attempt _ _).bind fun _ =>
    (Job.silent_attempt _ _).bind fun _ => Job.silent_pure _

section

variable {R : σ → σ → Prop} [IsPreorder σ R] (hread : ∀ path, Along R (files.read path))

include hread

theorem along_packageDocument (path : Path) :
    Job.Along R (files.packageDocument path) :=
  Job.along_attempt (along_readObject hread path) _

theorem along_projectText (path : Path) :
    Job.Along R (files.projectText path) :=
  Job.along_attempt (along_readText hread path) _

/-- Reading both versions leads where reading octets does. -/
theorem along_checkVersions (package project : Path) :
    Job.Along R (files.checkVersions package project) := by
  have hpackage : Job.Along R (files.packageVersion package) :=
    (along_packageDocument hread package).bind fun _ => Job.along_pure _
  have hproject : Job.Along R (files.projectVersion project) :=
    (along_projectText hread project).bind fun _ => Job.along_pure _
  exact hpackage.bind fun _ => hproject.bind fun _ => Job.along_pure _

/-- Comparing both versions leads where reading octets does. -/
theorem along_ensureSynchronized (package project : Path) (projectName : String) :
    Job.Along R (files.ensureSynchronized package project projectName) := by
  refine (along_checkVersions hread package project).bind fun status => ?_
  split
  · exact (Job.along_note _).bind fun _ => Job.along_pure _
  · split
    · exact (Job.along_note _).bind fun _ => Job.along_pure _
    · exact Job.along_ofOutcome _

end

/-! ## Writing -/

section

variable {m : Type → Type} [Monad m]

/-- What writing a version does once both manifests are read. -/
def updateVersions (files : Files m) (document : Fields Json) (text version : String)
    (package project : Path) : Job m VersionStatus := do
  files.updateManifest package (packageText (document.insert "version" (.str version))) version
  files.updateManifest project (Version.putInProject version text) version
  files.checkVersions package project

/-- What writing a version does once the version is accepted. -/
def writeVersions (files : Files m) (version : String) (package project : Path) :
    Job m VersionStatus := do
  let document ← files.packageDocument package
  let text ← files.projectText project
  files.updateVersions document text version package project

theorem syncVersions_eq (files : Files m) (version : String) (package project : Path) :
    files.syncVersions version package project =
      if !Version.isValid version then
        (Job.fail (.invalidVersion version) : Job m PUnit) >>= fun _ =>
          files.writeVersions version package project
      else
        files.writeVersions version package project := rfl

end

end Files

end DesignTokens
