import DesignTokens.Proofs.Files.Jobs
import DesignTokens.Proofs.Json.Lines
import DesignTokens.Proofs.Version.Element
import DesignTokens.Proofs.Version.Reading

/-!
# Synchronized manifests

A version that is written into two different manifests is read back from them: from the package
manifest always, and from a project manifest with a version when the version has no line feed.
`sync_synchronizes_iff` says so of every version that is accepted, and a line feed at its end is
accepted.
-/

namespace DesignTokens

namespace Files

open Disk (files)

variable {disk before after : Disk} {path package project : Path} {version text : String}
  {document : Fields Json} {status : VersionStatus}

/-! ## Reading manifests -/

/-- Both versions are read exactly when both manifests are. -/
theorem checkVersions_ends_iff :
    Job.Ends (files.checkVersions package project) before status after ↔
      ∃ document text, (files.readObject package before).1 = .ok document ∧
        (files.readText project before).1 = .ok text ∧
        status = ⟨versionField document, Version.ofProject? text⟩ ∧ before = after := by
  rw [checkVersions_eq, Job.bind_ends_iff]
  constructor
  · rintro ⟨document, middle, hpackage, hrest⟩
    obtain ⟨hdocument, rfl⟩ := Job.attempt_ends_iff.1 hpackage
    rw [Disk.quiet_readObject] at hrest
    obtain ⟨text, middle, hproject, hend⟩ := Job.bind_ends_iff.1 hrest
    obtain ⟨htext, rfl⟩ := Job.attempt_ends_iff.1 hproject
    rw [Disk.quiet_readText] at hend
    obtain ⟨rfl, rfl⟩ := Job.pure_ends_iff.1 hend
    exact ⟨document, text, hdocument, htext, rfl, rfl⟩
  · rintro ⟨document, text, hdocument, htext, rfl, rfl⟩
    refine ⟨document, before, Job.attempt_ends_iff.2 ⟨hdocument, Disk.quiet_readObject _ _⟩, ?_⟩
    exact Job.bind_ends_iff.2 ⟨text, before,
      Job.attempt_ends_iff.2 ⟨htext, Disk.quiet_readText _ _⟩, Job.pure_ends_iff.2 ⟨rfl, rfl⟩⟩

/-- The version of a project manifest is read exactly when its text is. -/
theorem projectVersion_ends_iff {found : Option String} :
    Job.Ends (files.projectVersion path) before found after ↔
      ∃ text, (files.readText path before).1 = .ok text ∧ Version.ofProject? text = found ∧
        before = after := by
  rw [projectVersion, Job.bind_ends_iff]
  constructor
  · rintro ⟨text, middle, hproject, hend⟩
    obtain ⟨htext, rfl⟩ := Job.attempt_ends_iff.1 hproject
    rw [Disk.quiet_readText] at hend
    obtain ⟨rfl, rfl⟩ := Job.pure_ends_iff.1 hend
    exact ⟨text, htext, rfl, rfl⟩
  · rintro ⟨text, htext, rfl, rfl⟩
    exact ⟨text, before, Job.attempt_ends_iff.2 ⟨htext, Disk.quiet_readText _ _⟩,
      Job.pure_ends_iff.2 ⟨rfl, rfl⟩⟩

/-- Versions that are read and agree are reported, and nothing else happens. -/
theorem ensureSynchronized_of_check
    (h : Job.Ends (files.checkVersions package project) before status before)
    (hnuget : status.nuget = some version) (hsync : status.synchronized = true) (name : String) :
    files.ensureSynchronized package project name before =
      (⟨[.versionsAgree version], .ok status⟩, before) := by
  rw [ensureSynchronized, Job.bind_of_ok h.1, silent_checkVersions, h.2]
  simp only [hnuget, hsync, if_true]
  rfl

/-! ## Writing manifests -/

/-- A manifest is updated exactly when its text is written. -/
theorem updateManifest_ends_iff :
    Job.Ends (files.updateManifest path text version) before () after ↔
      files.write path text before = (.ok (), after) := by
  rw [updateManifest, Job.bind_ends_iff]
  constructor
  · rintro ⟨made, middle, hwrite, hnote⟩
    obtain ⟨hresult, rfl⟩ := Job.attempt_ends_iff.1 hwrite
    obtain rfl := Job.note_ends_iff.1 hnote
    exact Prod.ext hresult rfl
  · intro hwrite
    refine ⟨(), after, Job.attempt_ends_iff.2 ?_, Job.note_ends_iff.2 rfl⟩
    rw [hwrite]
    exact ⟨rfl, rfl⟩

/-- A version is written into two manifests exactly when it is accepted, both manifests are read,
both are written, and both are read again. -/
theorem syncVersions_ends_iff :
    Job.Ends (files.syncVersions version package project) before status after ↔
      Version.isValid version = true ∧ ∃ document text middle,
        (files.readObject package before).1 = .ok document ∧
          (files.readText project before).1 = .ok text ∧
          files.write package (packageText (document.insert "version" (.str version))) before =
            (.ok (), middle) ∧
          files.write project (Version.putInProject version text) middle = (.ok (), after) ∧
          Job.Ends (files.checkVersions package project) after status after := by
  rw [syncVersions_eq]
  constructor
  · intro h
    split at h
    · obtain ⟨made, middle, hfail, -⟩ := Job.bind_ends_iff.1 h
      cases hfail.1
    rename_i hvalid
    refine ⟨by simpa using hvalid, ?_⟩
    -- Reading leaves the disk as it is, so the first write starts from `before`.
    obtain ⟨document, middle, hpackage, h⟩ := Job.bind_ends_iff.1 h
    obtain ⟨hdocument, rfl⟩ := Job.attempt_ends_iff.1 hpackage
    rw [Disk.quiet_readObject] at h
    obtain ⟨text, middle, hproject, h⟩ := Job.bind_ends_iff.1 h
    obtain ⟨htext, rfl⟩ := Job.attempt_ends_iff.1 hproject
    rw [Disk.quiet_readText] at h
    obtain ⟨made, middle, hfirst, h⟩ := Job.bind_ends_iff.1 h
    obtain ⟨made, last, hsecond, hcheck⟩ := Job.bind_ends_iff.1 h
    obtain ⟨-, -, -, -, -, rfl⟩ := checkVersions_ends_iff.1 hcheck
    exact ⟨document, text, middle, hdocument, htext, updateManifest_ends_iff.1 hfirst,
      updateManifest_ends_iff.1 hsecond, hcheck⟩
  · rintro ⟨hvalid, document, text, middle, hdocument, htext, hfirst, hsecond, hcheck⟩
    rw [if_neg (by simpa using hvalid)]
    refine Job.bind_ends_iff.2 ⟨document, before, Job.attempt_ends_iff.2
      ⟨hdocument, Disk.quiet_readObject _ _⟩, ?_⟩
    refine Job.bind_ends_iff.2 ⟨text, before, Job.attempt_ends_iff.2
      ⟨htext, Disk.quiet_readText _ _⟩, ?_⟩
    refine Job.bind_ends_iff.2 ⟨(), middle, updateManifest_ends_iff.2 hfirst, ?_⟩
    exact Job.bind_ends_iff.2 ⟨(), after, updateManifest_ends_iff.2 hsecond, hcheck⟩

/-- A document that was read is one that a text can denote. -/
theorem readable_of_readObject (h : (files.readObject path disk).1 = .ok document) :
    (Json.obj document).Readable := by
  obtain ⟨text, -, hread⟩ := Disk.readObject_eq_ok_iff.1 h
  exact Json.readable_of_read hread

/-- A package manifest is read back from its text. -/
theorem readObject_of_packageText (hdocument : (Json.obj document).Readable)
    (hanswer : Disk.answer path (disk.readOctets path) = .ok (packageText document).toUTF8) :
    files.readObject path disk = (.ok document, disk) := by
  have hlines : '\r' ∉ (packageText document).toList := by
    rw [packageText, String.toList_append, List.mem_append]
    exact not_or.2 ⟨Json.carriageReturn_not_mem_pretty .ascii _, by decide⟩
  have hblank : ∀ c ∈ "\n".toList, Json.isBlankChar c = true :=
    List.forall_mem_singleton.2 rfl
  have hread : Json.readAll (packageText document).toList = .ok (.obj document) := by
    rw [packageText, String.toList_append]
    exact Json.readAll_pretty .ascii hdocument hblank
  exact Disk.readObject_of_text hanswer hlines hread

/-- What two files written one after the other leave on a disk. -/
theorem wrote_of_writes {middle : Disk} {first second : String}
    (hfirst : files.write package first before = (.ok (), middle))
    (hsecond : files.write project second middle = (.ok (), after)) :
    Disk.Wrote before after [(package, first), (project, second)] := by
  have hone := Disk.wrote_of_write (congrArg Prod.fst hfirst)
  have htwo := Disk.wrote_of_write (congrArg Prod.fst hsecond)
  rw [hfirst] at hone
  rw [hsecond] at htwo
  exact hone.append htwo

/-- Two different files that are written one after the other both hold what was written. -/
theorem answers_of_writes {middle : Disk} {first second : String}
    (hdifferent : before.locate package ≠ before.locate project)
    (hpackage : package.hasNull = false ∧ ∃ location, before.locate package = .ok location)
    (hproject : project.hasNull = false ∧ ∃ location, before.locate project = .ok location)
    (hfirst : files.write package first before = (.ok (), middle))
    (hsecond : files.write project second middle = (.ok (), after)) :
    Disk.answer package (after.readOctets package) = .ok first.toUTF8 ∧
      Disk.answer project (after.readOctets project) = .ok second.toUTF8 := by
  have hwrote := wrote_of_writes hfirst hsecond
  obtain ⟨hpackageNull, here, hhere⟩ := hpackage
  obtain ⟨hprojectNull, there, hthere⟩ := hproject
  have hnodup : [after.locate package, after.locate project].Nodup := by
    rw [hwrote.locate hhere, hwrote.locate hthere, ← hhere, ← hthere]
    simpa using hdifferent
  have hheld := List.forall_mem_cons.1 (hwrote.held hnodup)
  have hone : after.readOctets package = .ok first.toUTF8 := hheld.1
  have htwo : after.readOctets project = .ok second.toUTF8 :=
    hheld.2 _ (List.mem_singleton_self _)
  exact ⟨Disk.answer_eq_ok_iff.2 ⟨hpackageNull, hone⟩, Disk.answer_eq_ok_iff.2 ⟨hprojectNull, htwo⟩⟩

/-- The version that is put into a document is its version. -/
theorem versionField_insert (document : Fields Json) (version : String) :
    versionField (document.insert "version" (.str version)) = some version := by
  rw [versionField, Fields.get?_insert, if_pos rfl]
  rfl

/-- Once a version is written into two different manifests, both hold what was written and are read
as that. -/
theorem manifests_of_writes {middle : Disk} (hvalid : Version.isValid version = true)
    (hdifferent : before.locate package ≠ before.locate project)
    (hdocument : (files.readObject package before).1 = .ok document)
    (htext : (files.readText project before).1 = .ok text)
    (hfirst : files.write package (packageText (document.insert "version" (.str version))) before =
      (.ok (), middle))
    (hsecond : files.write project (Version.putInProject version text) middle = (.ok (), after)) :
    (after.readOctets package =
          .ok (packageText (document.insert "version" (.str version))).toUTF8 ∧
        (files.readObject package after).1 = .ok (document.insert "version" (.str version))) ∧
      after.readOctets project = .ok (Version.putInProject version text).toUTF8 ∧
        (files.readText project after).1 = .ok (Version.putInProject version text) := by
  obtain ⟨packageOld, hpackageOld, -⟩ := Disk.readObject_eq_ok_iff.1 hdocument
  obtain ⟨hpackage, hproject⟩ := answers_of_writes hdifferent
    (Disk.located_of_readText hpackageOld) (Disk.located_of_readText htext) hfirst hsecond
  have hreadable : (Json.obj (document.insert "version" (.str version))).Readable :=
    (readable_of_readObject hdocument).insert "version" trivial
  have hlines : '\r' ∉ (Version.putInProject version text).toList :=
    Version.not_mem_putInProject (Disk.carriageReturn_not_mem_of_readText htext)
      (Version.carriageReturn_not_mem_of_isValid hvalid)
  exact ⟨⟨(Disk.answer_eq_ok_iff.1 hpackage).2,
      congrArg Prod.fst (readObject_of_packageText hreadable hpackage)⟩,
    (Disk.answer_eq_ok_iff.1 hproject).2,
    congrArg Prod.fst (Disk.readText_of_text hproject hlines)⟩

/-- Once a version is written into two different manifests, that of the package gives it, and that
of the project gives what is found where it was put in. -/
theorem checkVersions_of_writes {middle : Disk} (hvalid : Version.isValid version = true)
    (hdifferent : before.locate package ≠ before.locate project)
    (hdocument : (files.readObject package before).1 = .ok document)
    (htext : (files.readText project before).1 = .ok text)
    (hfirst : files.write package (packageText (document.insert "version" (.str version))) before =
      (.ok (), middle))
    (hsecond : files.write project (Version.putInProject version text) middle = (.ok (), after)) :
    Job.Ends (files.checkVersions package project) after
      ⟨some version, Version.ofProject? (Version.putInProject version text)⟩ after := by
  obtain ⟨⟨-, hpackage⟩, -, hproject⟩ :=
    manifests_of_writes hvalid hdifferent hdocument htext hfirst hsecond
  exact checkVersions_ends_iff.2 ⟨document.insert "version" (.str version), _, hpackage, hproject,
    by rw [versionField_insert], rfl⟩

/-- When a version is written into two different manifests, of which that of the project has a
version, the package manifest gives the new one. The project manifest does so too, and comparing
both only reports that they agree, exactly when the version has no line feed. -/
theorem sync_synchronizes_iff {old : String}
    (hold : Job.Ends (files.projectVersion project) before (some old) before)
    (hdifferent : before.locate package ≠ before.locate project)
    (hsync : Job.Ends (files.syncVersions version package project) before status after)
    (name : String) :
    status.npm = some version ∧
      (status.nuget = some version ∧
          files.ensureSynchronized package project name after =
            (⟨[.versionsAgree version], .ok status⟩, after) ↔
        '\n' ∉ version.toList) := by
  obtain ⟨hvalid, document, text, middle, hdocument, htext, hfirst, hsecond, hcheck⟩ :=
    syncVersions_ends_iff.1 hsync
  obtain ⟨textOld, htextOld, hversionOld, -⟩ := projectVersion_ends_iff.1 hold
  obtain rfl : text = textOld := Except.ok.inj (htext.symm.trans htextOld)
  obtain rfl : status = ⟨some version, Version.ofProject? (Version.putInProject version text)⟩ := by
    have hagain := checkVersions_of_writes hvalid hdifferent hdocument htext hfirst hsecond
    exact Except.ok.inj (hcheck.1.symm.trans hagain.1)
  refine ⟨rfl, fun ⟨hnuget, _⟩ hline => ?_, fun hline => ?_⟩
  · -- No version that a project manifest gives has a line feed.
    cases (Version.isContent_of_ofProject? hnuget).chars '\n' hline
  · have hnuget := Version.ofProject?_putInProject hversionOld
      (Version.isContent_of_isValid hvalid hline)
    rw [hnuget] at hcheck ⊢
    have hsynchronized : VersionStatus.synchronized ⟨some version, some version⟩ = true := by
      simp [VersionStatus.synchronized]
    exact ⟨rfl, ensureSynchronized_of_check hcheck rfl hsynchronized name⟩

end Files

/-! ## Versions with and without a line feed -/

namespace WritableManifests

/-- The package manifest. -/
def package : Path := ⟨"", ["p"]⟩

/-- The project manifest. -/
def project : Path := ⟨"", ["c"]⟩

/-- The document of the package manifest. -/
def document : Fields Json := [("version", .str "1.0.0")]

/-- The text of the project manifest. -/
def projectText : String := "<Version>1.0.0</Version>"

/-- A disk with both manifests. -/
def disk : Disk :=
  { entries := [(["p"], .file "\x7b\"version\": \"1.0.0\"\x7d".toUTF8),
      (["c"], .file projectText.toUTF8)] }

/-- The answer to writing a version into the package manifest, and the disk after it. -/
def writePackage (version : String) : Except FileFault Unit × Disk :=
  Disk.files.write package (Files.packageText (document.insert "version" (.str version))) disk

/-- The answer to writing a version into the project manifest after that, and the disk after it. -/
def writeProject (version : String) : Except FileFault Unit × Disk :=
  Disk.files.write project (Version.putInProject version projectText) (writePackage version).2

/-- Both manifests are read, the project gives a version, and they are different files. -/
theorem reads :
    (Disk.files.readObject package disk).1 = .ok document ∧
      (Disk.files.readText project disk).1 = .ok projectText ∧
      Version.ofProject? projectText = some "1.0.0" ∧
      disk.locate package ≠ disk.locate project := by
  decide +kernel

/-- A version with a line feed at its end is accepted and written as one without is. It is not found
again in the project manifest. -/
theorem accepts :
    (∀ version ∈ ["2.0.0", "1.2.3\n"], Version.isValid version = true ∧
        (writePackage version).1 = .ok () ∧ (writeProject version).1 = .ok ()) ∧
      Version.ofProject? (Version.putInProject "1.2.3\n" projectText) = none := by
  decide +kernel

/-- The version of the project manifest is read. -/
theorem reads_version : Job.Ends (Disk.files.projectVersion project) disk (some "1.0.0") disk :=
  Files.projectVersion_ends_iff.2 ⟨projectText, reads.2.1, reads.2.2.1, rfl⟩

/-- A version that is accepted is written when both requests are. -/
theorem syncs {version : String} (h : Version.isValid version = true ∧
      (writePackage version).1 = .ok () ∧ (writeProject version).1 = .ok ()) :
    Job.Ends (Disk.files.syncVersions version package project) disk
      ⟨some version, Version.ofProject? (Version.putInProject version projectText)⟩
      (writeProject version).2 := by
  obtain ⟨hvalid, hfirst, hsecond⟩ := h
  obtain ⟨hdocument, htext, -, hdifferent⟩ := reads
  exact Files.syncVersions_ends_iff.2 ⟨hvalid, document, projectText, (writePackage version).2,
    hdocument, htext, Prod.ext hfirst rfl, Prod.ext hsecond rfl,
    Files.checkVersions_of_writes hvalid hdifferent hdocument htext
      (Prod.ext hfirst rfl) (Prod.ext hsecond rfl)⟩

end WritableManifests

open WritableManifests in
/-- A version without a line feed is given by both manifests afterwards. -/
theorem plain_version_synchronized :
    ∃ status after, Job.Ends (Disk.files.syncVersions "2.0.0" package project) disk status after ∧
      status.npm = some "2.0.0" ∧ status.nuget = some "2.0.0" ∧
        Disk.files.ensureSynchronized package project "c" after =
          (⟨[.versionsAgree "2.0.0"], .ok status⟩, after) := by
  have hsync := syncs (accepts.1 "2.0.0" (by simp))
  obtain ⟨hnpm, hsynchronized⟩ :=
    Files.sync_synchronizes_iff reads_version reads.2.2.2 hsync "c"
  have hline : '\n' ∉ "2.0.0".toList := by
    simp
  exact ⟨_, _, hsync, hnpm, hsynchronized.2 hline⟩

open WritableManifests in
/-- Not every version that is accepted is given by both manifests once it is written. -/
theorem accepted_version_not_synchronized :
    ¬ ∀ (version : String) (package project : Path) (before after : Disk)
      (document : Fields Json) (old : String) (status : VersionStatus),
      Version.isValid version = true →
      (Disk.files.readObject package before).1 = .ok document →
      Job.Ends (Disk.files.projectVersion project) before (some old) before →
      before.locate package ≠ before.locate project →
      Job.Ends (Disk.files.syncVersions version package project) before status after →
        status.npm = some version ∧ status.nuget = some version := by
  intro h
  have haccepted := accepts.1 "1.2.3\n" (by simp)
  obtain ⟨-, hnuget⟩ := h "1.2.3\n" package project disk _ document "1.0.0" _ haccepted.1 reads.1
    reads_version reads.2.2.2 (syncs haccepted)
  cases accepts.2.symm.trans hnuget

end DesignTokens
