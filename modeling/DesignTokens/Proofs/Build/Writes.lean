import DesignTokens.Build.Run
import DesignTokens.Proofs.Files.Jobs
import DesignTokens.Proofs.Version.Reading

/-!
# The files of a build

A build that succeeds loads its document from the disk as it finds it, and then carries out its
stages on that disk (`build_ends`). Where the locations of its files differ, every stage succeeded
and each of its files holds its text in the end: `holds_of_carryOut`.
-/

namespace DesignTokens

/-- An output as a path and the text of the file there. -/
def Output.file (output : Output) : Path × String :=
  (output.path, output.text)

namespace Files

/-! ## Before the stages -/

section

variable {σ : Type} {R : σ → σ → Prop} [IsPreorder σ R]

theorem along_report (events : List Event) : Job.Along R (report events) := by
  induction events with
  | nil => exact Job.along_pure _
  | cons event rest ih => exact (Job.along_note event).bind fun _ => ih

/-- Checking a document does nothing to the state. -/
theorem along_checkDocument (document : Fields Json) (product : String) :
    Job.Along R (checkDocument document product) :=
  (along_report _).bind fun _ => Job.along_ofOutcome _

variable {files : Files (StateM σ)} (hread : ∀ path, Along R (files.read path))

include hread

theorem along_loadDocument (path : Path) (name : String) :
    Job.Along R (files.loadDocument path name) :=
  Job.along_attempt (along_readObject hread path) _

theorem along_loadDocuments (paths : List Path) : Job.Along R (files.loadDocuments paths) := by
  induction paths with
  | nil => exact Job.along_pure _
  | cons path rest ih =>
      exact (along_loadDocument hread path path.text).bind fun document =>
        ih.bind fun documents => Job.along_pure _

/-- Loading the document of a build leads where reading octets does. -/
theorem along_loadTokens (config : BuildConfig) : Job.Along R (files.loadTokens config) := by
  refine (along_loadDocument hread _ _).bind fun document => ?_
  split
  · exact Job.along_pure _
  · exact (along_loadDocuments hread _).bind fun layers =>
      (Job.along_note _).bind fun _ => Job.along_pure _

end

open Disk (files)

variable {before after : Disk}

/-- Loading the document of a build leaves the disk as it is. -/
theorem quiet_loadTokens (config : BuildConfig) : Job.Quiet (files.loadTokens config) :=
  along_loadTokens (R := fun before after => after = before) Disk.quiet_read config

/-- A build without overlays loads the document that its path holds. -/
theorem loadTokens_ends {config : BuildConfig} {document : Fields Json}
    (hoverlays : config.overlays = [])
    (hread : files.readObject config.tokensPath before = (.ok document, before)) :
    Job.Ends (files.loadTokens config) before document before := by
  refine Job.bind_ends_iff.2 ⟨document, before, Job.attempt_ends_iff.2 ?_, ?_⟩
  · rw [hread]
    exact ⟨rfl, rfl⟩
  · rw [hoverlays]
    exact Job.pure_ends_iff.2 ⟨rfl, rfl⟩

/-- Comparing versions leaves the disk as it is. -/
theorem quiet_ensureSynchronized (package project : Path) (projectName : String) :
    Job.Quiet (files.ensureSynchronized package project projectName) :=
  along_ensureSynchronized (R := fun before after => after = before) Disk.quiet_read package project
    projectName

theorem quiet_report (events : List Event) : Job.Quiet (report events) :=
  along_report (R := fun before after => after = before) events

/-- Reports are made whatever the disk holds. -/
theorem report_ends (events : List Event) :
    Job.Ends (report events : Job (StateM Disk) Unit) before () before := by
  induction events with
  | nil => exact Job.pure_ends_iff.2 ⟨rfl, rfl⟩
  | cons event rest ih =>
      exact Job.bind_ends_iff.2 ⟨(), before, Job.note_ends_iff.2 rfl, ih⟩

/-- Checking a document leaves the disk as it is. -/
theorem quiet_checkDocument (document : Fields Json) (product : String) :
    Job.Quiet (checkDocument document product) :=
  along_checkDocument (R := fun before after => after = before) document product

/-- A valid document is accepted. -/
theorem checkDocument_ends {document : Fields Json} {product : String}
    (hvalid : (validate document product).valid = true) :
    Job.Ends (checkDocument document product) before () before := by
  refine Job.bind_ends_iff.2 ⟨(), before, report_ends _, ?_, rfl⟩
  show (validate document product).check = .ok ()
  rw [Report.check, if_pos hvalid]

/-! ## The stages -/

/-- An output that is written holds its text. -/
theorem wrote_of_writeOutput {output : Output} {toError : FileFault → Error}
    (h : Job.Ends (files.writeOutput output.path output.text toError) before () after) :
    Disk.Wrote before after [output.file] := by
  obtain ⟨made, middle, hwrite, hnote⟩ := Job.bind_ends_iff.1 h
  obtain ⟨hresult, rfl⟩ := Job.attempt_ends_iff.1 hwrite
  obtain rfl := Job.note_ends_iff.1 hnote
  exact Disk.wrote_of_writeBelow hresult

/-- Outputs that are written are at their paths, in order. -/
theorem wrote_of_writeOutputs {outputs : List Output} {written : List Path}
    (h : Job.Ends (files.writeOutputs outputs) before written after) :
    written = outputs.map Output.path ∧ Disk.Wrote before after (outputs.map Output.file) := by
  induction outputs generalizing before written with
  | nil =>
      obtain ⟨rfl, rfl⟩ := Job.pure_ends_iff.1 h
      exact ⟨rfl, Disk.Wrote.refl before⟩
  | cons output rest ih =>
      obtain ⟨made, middle, hfirst, hothers⟩ := Job.bind_ends_iff.1 h
      obtain ⟨paths, last, hrest, hend⟩ := Job.bind_ends_iff.1 hothers
      obtain ⟨rfl, rfl⟩ := Job.pure_ends_iff.1 hend
      obtain ⟨rfl, hwrote⟩ := ih hrest
      exact ⟨rfl, (wrote_of_writeOutput hfirst).append hwrote⟩

/-- Stages that are carried out succeed, and their outputs are written in order. -/
theorem wrote_of_carryOut {stages : List Stage} {written : List Path}
    (h : Job.Ends (files.carryOut stages) before written after) :
    ∃ batches : List Batch, stages.map Outcome.result = batches.map .ok ∧
      written = (batches.flatMap Batch.outputs).map Output.path ∧
      Disk.Wrote before after ((batches.flatMap Batch.outputs).map Output.file) := by
  induction stages generalizing before written with
  | nil =>
      obtain ⟨rfl, rfl⟩ := Job.pure_ends_iff.1 h
      exact ⟨[], rfl, rfl, Disk.Wrote.refl before⟩
  | cons stage rest ih =>
      obtain ⟨batch, ready, hstage, hbelow⟩ := Job.bind_ends_iff.1 h
      obtain ⟨hbatch, rfl⟩ := Job.ofOutcome_ends_iff.1 hstage
      obtain ⟨paths, middle, houtputs, hreported⟩ := Job.bind_ends_iff.1 hbelow
      obtain ⟨reported, told, hreport, hlater⟩ := Job.bind_ends_iff.1 hreported
      -- Reports change nothing, so the next stage starts from what the outputs leave.
      obtain rfl := hreport.of_quiet (quiet_report _)
      obtain ⟨later, last, hrest, hend⟩ := Job.bind_ends_iff.1 hlater
      obtain ⟨rfl, rfl⟩ := Job.pure_ends_iff.1 hend
      obtain ⟨rfl, hfirst⟩ := wrote_of_writeOutputs houtputs
      obtain ⟨batches, hbatches, rfl, hwrote⟩ := ih hrest
      refine ⟨batch :: batches, ?_, ?_, ?_⟩
      · rw [List.map_cons, List.map_cons, hbatch, hbatches]
      · rw [List.flatMap_cons, List.map_append]
      · rw [List.flatMap_cons, List.map_append]
        exact hfirst.append hwrote

/-- Where the locations of the files written differ, a stage that was carried out succeeded and each
of its files holds its text. -/
theorem holds_of_carryOut {stages : List Stage} {written : List Path}
    (h : Job.Ends (files.carryOut stages) before written after)
    (hdistinct : (written.map after.locate).Nodup) {stage : Stage} (hstage : stage ∈ stages) :
    ∃ batch, stage.result = .ok batch ∧
      ∀ output ∈ batch.outputs, after.readOctets output.path = .ok output.text.toUTF8 := by
  obtain ⟨batches, hbatches, rfl, hwrote⟩ := wrote_of_carryOut h
  have hresult : stage.result ∈ batches.map Except.ok := hbatches ▸ List.mem_map_of_mem hstage
  obtain ⟨batch, hbatch, hok⟩ := List.mem_map.1 hresult
  refine ⟨batch, hok.symm, fun output houtput => ?_⟩
  rw [List.map_map] at hdistinct
  refine hwrote.held ?_ output.file
    (List.mem_map_of_mem (List.mem_flatMap.2 ⟨batch, hbatch, houtput⟩))
  rw [List.map_map]
  exact hdistinct

/-! ## The whole build -/

section

variable {m : Type → Type} [Monad m]

/-- What a build does with its document once that is accepted. -/
def buildStages (files : Files m) (config : BuildConfig) (now : Moment) (document : Fields Json) :
    Job m BuildResult := do
  let tokens := ProductTokens.extract document config.product config.scopeId
  let entries ← Job.ofOutcome (tokens.source.walk .qualified "")
  let written ← files.carryOut (config.stages document now)
  Job.note (.buildFinished written.length config.outputFolder.text)
  return ⟨written, entries.length⟩

/-- What a build does once versions are compared. -/
def buildLoaded (files : Files m) (config : BuildConfig) (now : Moment) : Job m BuildResult := do
  let document ← files.loadTokens config
  if config.validate then
    checkDocument document config.product >>= fun _ => files.buildStages config now document
  else
    files.buildStages config now document

/-- A build compares versions when it has to, and goes on. -/
theorem build_eq (files : Files m) (config : BuildConfig) (now : Moment) :
    files.build config now = (do
      Job.note .buildStarted
      if config.checkVersions then
        files.ensureSynchronized config.packagePath config.projectPath config.projectPath.text >>=
          fun _ => files.buildLoaded config now
      else
        files.buildLoaded config now) := rfl

end

/-- A build that has no versions to compare ends as its stages do, once it has loaded a document
that it accepts. -/
theorem build_result_of_stages {config : BuildConfig} {now : Moment} {document : Fields Json}
    (hversions : config.checkVersions = false)
    (hload : Job.Ends (files.loadTokens config) before document before)
    (hvalid : config.validate = true → (validate document config.product).valid = true) :
    (files.build config now before).1.result =
        (files.buildStages config now document before).1.result ∧
      (files.build config now before).2 = (files.buildStages config now document before).2 := by
  have hloaded : (files.buildLoaded config now before).1.result =
        (files.buildStages config now document before).1.result ∧
      (files.buildLoaded config now before).2 =
        (files.buildStages config now document before).2 := by
    rw [buildLoaded, Job.bind_of_ok hload.1, hload.2]
    split
    · rename_i hvalidate
      have hcheck : Job.Ends (checkDocument document config.product) before () before :=
        checkDocument_ends (hvalid hvalidate)
      rw [Job.bind_of_ok hcheck.1, hcheck.2]
      exact ⟨rfl, rfl⟩
    · exact ⟨rfl, rfl⟩
  have hnote : Job.Ends (Job.note .buildStarted : Job (StateM Disk) Unit) before () before :=
    Job.note_ends_iff.2 rfl
  rw [build_eq, Job.bind_of_ok hnote.1, hnote.2, if_neg (ne_true_of_eq_false hversions)]
  exact hloaded

/-- A build that succeeds loads its document and carries out its stages, starting from the disk as
it was. -/
theorem build_ends {config : BuildConfig} {now : Moment} {result : BuildResult}
    (h : Job.Ends (files.build config now) before result after) :
    ∃ document, Job.Ends (files.loadTokens config) before document before ∧
      Job.Ends (files.carryOut (config.stages document now)) before result.written after := by
  -- Nothing before the stages changes the disk, so they start from the one that the build found.
  rw [build_eq] at h
  obtain ⟨started, ready, hstarted, hchecked⟩ := Job.bind_ends_iff.1 h
  obtain rfl := Job.note_ends_iff.1 hstarted
  have hloaded := Job.ends_of_optional (quiet_ensureSynchronized _ _ _) hchecked
  obtain ⟨document, middle, hload, haccepted⟩ := Job.bind_ends_iff.1 hloaded
  obtain rfl := hload.of_quiet (quiet_loadTokens config)
  refine ⟨document, hload, ?_⟩
  have hstages := Job.ends_of_optional (quiet_checkDocument _ _) haccepted
  obtain ⟨entries, walked, hwalk, hcarried⟩ := Job.bind_ends_iff.1 hstages
  obtain ⟨-, rfl⟩ := Job.ofOutcome_ends_iff.1 hwalk
  obtain ⟨written, last, hcarry, hreported⟩ := Job.bind_ends_iff.1 hcarried
  obtain ⟨told, final, hnote, hend⟩ := Job.bind_ends_iff.1 hreported
  obtain rfl := Job.note_ends_iff.1 hnote
  obtain ⟨rfl, rfl⟩ := Job.pure_ends_iff.1 hend
  exact hcarry

end Files

end DesignTokens
