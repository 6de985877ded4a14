import DesignTokens.Proofs.Files.View
import DesignTokens.Proofs.Version.Synchronization

/-!
# What writing a version changes

Writing a version into both manifests changes the version and nothing else. The package manifest
keeps the other members of its document in their order, and the project manifest keeps all
characters around the content of its first version element. Writing the version once more leaves
every file as it is: `sync_rewrites_versions`.
-/

namespace DesignTokens

namespace Version

variable {text version : List Char} {e : Element}

/-! ## The text of a project manifest -/

/-- The element stands in the text, between the characters before and after it. -/
def Element.StandsIn (e : Element) (text : List Char) : Prop :=
  IsContent e.content ∧ text = e.before ++ (element e.content ++ e.after)

/-- What putting a version into a text makes of it: the version takes the place of the content of
the version element that stands first, and a text in which none stands stays as it is. -/
inductive Rewritten (version text : List Char) : List Char → Prop
  | replaced (e : Element) (hstands : e.StandsIn text)
      (hfirst : ∀ other : Element, other.StandsIn text → e.before.length ≤ other.before.length) :
      Rewritten version text (e.before ++ (element version ++ e.after))
  | unchanged (hnone : ∀ e : Element, ¬ e.StandsIn text) : Rewritten version text text

/-- Where an element stands, an element is found that begins there or before. -/
theorem Element.StandsIn.exists_first (h : e.StandsIn text) :
    ∃ first, firstElement? text = some first ∧ first.before.length ≤ e.before.length := by
  obtain ⟨before, content, after⟩ := e
  induction before generalizing text with
  | nil =>
      have hfirst : firstElement? text = some ⟨[], content, after⟩ :=
        firstElement?_eq_some_iff.2 ⟨h.1, rfl, h.2⟩
      exact ⟨_, hfirst, Nat.le_refl _⟩
  | cons c before ih =>
      obtain ⟨hcontent, rfl⟩ := h
      obtain ⟨first, hfirst, hle⟩ := ih ⟨hcontent, rfl⟩
      rw [List.cons_append]
      cases hat : elementAt? (c :: (before ++ (element content ++ after))) with
      | some found => exact ⟨⟨[], found.1, found.2⟩, by rw [firstElement?, hat], Nat.zero_le _⟩
      | none =>
          refine ⟨{ first with before := c :: first.before }, ?_, Nat.succ_le_succ hle⟩
          rw [firstElement?_cons_of_none hat, hfirst]
          rfl

/-- Putting a version into a project file replaces the content of the first version element. -/
theorem rewritten_putInProject (version text : String) :
    Rewritten version.toList text.toList (putInProject version text).toList := by
  cases hfirst : firstElement? text.toList with
  | some e =>
      obtain ⟨hcontent, -, heq⟩ := firstElement?_eq_some_iff.1 hfirst
      rw [putInProject_of_firstElement? hfirst]
      refine .replaced e ⟨hcontent, heq⟩ fun other hother => ?_
      obtain ⟨first, hother, hle⟩ := hother.exists_first
      rwa [Option.some.inj (hfirst.symm.trans hother)]
  | none =>
      rw [putInProject, hfirst]
      refine .unchanged fun e he => ?_
      obtain ⟨first, hfound, -⟩ := he.exists_first
      cases hfirst.symm.trans hfound

/-- A version that was put into a project file is put there again without a change, since the first
element is the same before and after. -/
theorem putInProject_putInProject {version : String} (hversion : IsContent version.toList)
    (text : String) :
    putInProject version (putInProject version text) = putInProject version text := by
  cases hfirst : firstElement? text.toList with
  | some e =>
      have hagain := firstElement?_putInProject hfirst hversion
      rw [← String.toList_inj, putInProject_of_firstElement? hagain,
        putInProject_of_firstElement? hfirst]
  | none =>
      have hsame : putInProject version text = text := by
        rw [putInProject, hfirst]
      rw [hsame, hsame]

end Version

namespace Files

open Disk (files)

variable {before after : Disk} {package project : Path} {version text : String}
  {document : Fields Json} {status : VersionStatus}

/-! ## The manifests on a disk -/

/-- A successful write is shown in the view of the disk. -/
theorem view_of_write {path : Path} (h : files.write path text before = (.ok (), after)) :
    after.view = before.view.write path text := by
  have hview := Disk.shows_view.write path text before (congrArg Prod.fst h)
  rwa [h] at hview

/-- A version that both manifests have already is written without a change. -/
theorem sync_again (hvalid : Version.isValid version = true)
    (hdifferent : before.locate package ≠ before.locate project)
    (hpackage : Disk.Writable before package) (hproject : Disk.Writable before project)
    (hdocument : (files.readObject package before).1 = .ok document)
    (htext : (files.readText project before).1 = .ok text)
    (hversion : document.insert "version" (.str version) = document)
    (hput : Version.putInProject version text = text)
    (hfirst : before.readOctets package = .ok (packageText document).toUTF8)
    (hsecond : before.readOctets project = .ok text.toUTF8) :
    ∃ after, Job.Ends (files.syncVersions version package project) before
        ⟨some version, Version.ofProject? text⟩ after ∧
      after.readOctets package = before.readOctets package ∧
      after.readOctets project = before.readOctets project ∧ after.view = before.view := by
  obtain ⟨middle, hone⟩ := hpackage.exists_write (packageText document)
  obtain ⟨after, htwo⟩ := (hproject.of_write hone).exists_write text
  have hview : after.view = before.view := by
    rw [view_of_write htwo, view_of_write hone,
      FileView.write_eq_self (Disk.octets?_view_of_readOctets hfirst),
      FileView.write_eq_self (Disk.octets?_view_of_readOctets hsecond)]
  rw [← hversion] at hone
  rw [← hput] at htwo
  have hcheck := checkVersions_of_writes hvalid hdifferent hdocument htext hone htwo
  have hheld := manifests_of_writes hvalid hdifferent hdocument htext hone htwo
  rw [hput] at hcheck
  rw [hversion, hput, ← hfirst, ← hsecond] at hheld
  exact ⟨after, syncVersions_ends_iff.2 ⟨hvalid, document, text, middle, hdocument, htext, hone,
    htwo, hcheck⟩, hheld.1.1, hheld.2.1, hview⟩

/-- Writing a version without a line feed into two different manifests puts it into the document of
the package manifest, which keeps its other members, and into the first version element of the
project manifest, which keeps its other characters. No other file is changed, and writing the
version once more succeeds and changes no file at all. -/
theorem sync_rewrites_versions (hline : '\n' ∉ version.toList)
    (hdifferent : before.locate package ≠ before.locate project)
    (hdocument : (files.readObject package before).1 = .ok document)
    (htext : (files.readText project before).1 = .ok text)
    (hsync : Job.Ends (files.syncVersions version package project) before status after) :
    ∃ (written : Fields Json) (rewritten : String),
      Fields.Put "version" (.str version) document written ∧
      Version.Rewritten version.toList text.toList rewritten.toList ∧
      (files.readObject package after).1 = .ok written ∧
      after.readOctets project = .ok rewritten.toUTF8 ∧
      after.view =
        (before.view.write package (packageText written)).write project rewritten ∧
      ∃ again, Job.Ends (files.syncVersions version package project) after status again ∧
        again.readOctets package = after.readOctets package ∧
        again.readOctets project = after.readOctets project ∧ again.view = after.view := by
  obtain ⟨hvalid, readDocument, readText, middle, hreadDocument, hreadText, hfirst, hsecond,
    hcheck⟩ := syncVersions_ends_iff.1 hsync
  obtain rfl : document = readDocument := Except.ok.inj (hdocument.symm.trans hreadDocument)
  obtain rfl : text = readText := Except.ok.inj (htext.symm.trans hreadText)
  obtain rfl : status = ⟨some version, Version.ofProject? (Version.putInProject version text)⟩ := by
    have hwritten := checkVersions_of_writes hvalid hdifferent hdocument htext hfirst hsecond
    exact Except.ok.inj (hcheck.1.symm.trans hwritten.1)
  obtain ⟨⟨hpackage, hwritten⟩, hproject, hrewritten⟩ :=
    manifests_of_writes hvalid hdifferent hdocument htext hfirst hsecond
  refine ⟨document.insert "version" (.str version), Version.putInProject version text,
    Fields.put_insert _ _ _, Version.rewritten_putInProject _ _, hwritten, hproject, ?_, ?_⟩
  · rw [view_of_write hsecond, view_of_write hfirst]
  -- The manifests have the version now, so putting it in once more changes neither of them.
  have hversion : (document.insert "version" (.str version)).insert "version" (.str version) =
      document.insert "version" (.str version) :=
    Fields.insert_of_get? (by rw [Fields.get?_insert, if_pos rfl])
  have hput := Version.putInProject_putInProject (Version.isContent_of_isValid hvalid hline) text
  have hstill : after.locate package ≠ after.locate project := by
    obtain ⟨packageOld, hpackageOld, -⟩ := Disk.readObject_eq_ok_iff.1 hdocument
    obtain ⟨-, here, hhere⟩ := Disk.located_of_readText hpackageOld
    obtain ⟨-, there, hthere⟩ := Disk.located_of_readText htext
    have hwrote := wrote_of_writes hfirst hsecond
    rwa [hwrote.locate hhere, hwrote.locate hthere, ← hhere, ← hthere]
  have hpackageWritable := ((Disk.writable_of_write hfirst).of_write hfirst).of_write hsecond
  have hprojectWritable := (Disk.writable_of_write hsecond).of_write hsecond
  exact sync_again hvalid hstill hpackageWritable hprojectWritable hwritten hrewritten hversion hput
    hpackage hproject

end Files

/-! ## Manifests with several tags -/

namespace TaggedProject

/-- The package manifest. -/
def package : Path := ⟨"", ["p"]⟩

/-- The project manifest. -/
def project : Path := ⟨"", ["c"]⟩

/-- The document of the package manifest, which has its version between other members. -/
def document (version : String) : Fields Json :=
  [("name", .str "d"), ("version", .str version), ("private", .bool true)]

/-- The text of the project manifest. Its first version element stands behind tags that make no
element, and another element follows. -/
def text (version : String) : String :=
  "<Version>\n<Version></Version><Version>" ++ version ++ "</Version>\n<Version>1.1</Version>"

/-- The octets of the package manifest. -/
def packageOctets : ByteArray :=
  "\x7b\"name\":\"d\",\"version\":\"1.0.0\",\"private\":true\x7d".toUTF8

/-- The octets of the project manifest, with line endings of two kinds. -/
def projectOctets : ByteArray :=
  ("<Version>\r\n<Version></Version><Version>1.0.0</Version>\n" ++
    "<Version>1.1</Version>").toUTF8

/-- A disk with both manifests. -/
def disk : Disk :=
  { entries := [(["p"], .file packageOctets), (["c"], .file projectOctets)] }

/-- Both manifests are read, and they are different files. -/
theorem reads :
    disk.locate package ≠ disk.locate project ∧
      (Disk.files.readObject package disk).1 = .ok (document "1.0.0") ∧
      (Disk.files.readText project disk).1 = .ok (text "1.0.0") := by
  decide +kernel

/-- Both manifests may be written. -/
theorem writable : Disk.Writable disk package ∧ Disk.Writable disk project :=
  ⟨⟨by decide, rfl, ["p"], by decide, fun h => nomatch h⟩,
    ⟨by decide, rfl, ["c"], by decide, fun h => nomatch h⟩⟩

/-- The version takes the place of the old one in both manifests, and is found there. -/
theorem puts :
    (document "1.0.0").insert "version" (.str "2.0.0") = document "2.0.0" ∧
      Version.isValid "2.0.0" = true ∧
      Version.putInProject "2.0.0" (text "1.0.0") = text "2.0.0" ∧
      Version.ofProject? (text "2.0.0") = some "2.0.0" := by
  decide +kernel

/-- A version is written into both manifests. -/
theorem syncs : ∃ after,
    Job.Ends (Disk.files.syncVersions "2.0.0" package project) disk
        ⟨some "2.0.0", some "2.0.0"⟩ after ∧
      (Disk.files.readObject package after).1 = .ok (document "2.0.0") ∧
      after.readOctets project = .ok (text "2.0.0").toUTF8 := by
  obtain ⟨hdifferent, hdocument, htext⟩ := reads
  obtain ⟨hpackage, hproject⟩ := writable
  obtain ⟨hinsert, hvalid, hput, hfound⟩ := puts
  obtain ⟨middle, hfirst⟩ := hpackage.exists_write (Files.packageText (document "2.0.0"))
  obtain ⟨after, hsecond⟩ := (hproject.of_write hfirst).exists_write (text "2.0.0")
  rw [← hinsert] at hfirst
  rw [← hput] at hsecond
  have hcheck := Files.checkVersions_of_writes hvalid hdifferent hdocument htext hfirst hsecond
  have hheld := Files.manifests_of_writes hvalid hdifferent hdocument htext hfirst hsecond
  rw [hput, hfound] at hcheck
  rw [hinsert, hput] at hheld
  exact ⟨after, Files.syncVersions_ends_iff.2 ⟨hvalid, _, _, middle, hdocument, htext, hfirst,
    hsecond, hcheck⟩, hheld.1.2, hheld.2.1⟩

end TaggedProject

open TaggedProject in
/-- The version is written between the first tags that make an element and nowhere else, and writing
it again changes no file. -/
theorem tagged_project_rewritten :
    Fields.Put "version" (.str "2.0.0") (document "1.0.0") (document "2.0.0") ∧
      Version.Rewritten "2.0.0".toList (text "1.0.0").toList (text "2.0.0").toList ∧
      ∃ after, Job.Ends (Disk.files.syncVersions "2.0.0" package project) disk
          ⟨some "2.0.0", some "2.0.0"⟩ after ∧
        (Disk.files.readObject package after).1 = .ok (document "2.0.0") ∧
        after.readOctets project = .ok (text "2.0.0").toUTF8 ∧
        ∃ again, Job.Ends (Disk.files.syncVersions "2.0.0" package project) after
            ⟨some "2.0.0", some "2.0.0"⟩ again ∧
          again.readOctets package = after.readOctets package ∧
          again.readOctets project = after.readOctets project ∧ again.view = after.view := by
  obtain ⟨hdifferent, hdocument, htext⟩ := reads
  obtain ⟨after, hsync, hpackage, hproject⟩ := syncs
  have hline : '\n' ∉ "2.0.0".toList := by
    simp
  obtain ⟨written, rewritten, hput, hrewritten, hread, hoctets, -, hagain⟩ :=
    Files.sync_rewrites_versions hline hdifferent hdocument htext hsync
  obtain rfl : document "2.0.0" = written := Except.ok.inj (hpackage.symm.trans hread)
  obtain rfl : text "2.0.0" = rewritten :=
    String.toByteArray_inj.1 (Except.ok.inj (hproject.symm.trans hoctets))
  exact ⟨hput, hrewritten, after, hsync, hpackage, hproject, hagain⟩

end DesignTokens
