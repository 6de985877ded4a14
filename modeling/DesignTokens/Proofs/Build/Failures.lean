import DesignTokens.Proofs.Build.Writes

/-!
# How builds fail

A build that fails does so over its files or their versions, over the structure of its document, or
over the tokens: then the error is that of the first walk or of a stage (`build_fails`).
-/

namespace DesignTokens

/-- The error is about files or their versions, and not about what a document holds. -/
def Error.aboutFiles : Error → Bool
  | .versionMismatch .. | .manifest .. | .tokenFile .. | .outputFile .. | .file _ => true
  | _ => false

/-- A fault of a file is reported as an error about files. -/
theorem Error.aboutFiles_ofFile {toError : FileFault → Error}
    (h : ∀ fault, (toError fault).aboutFiles = true) (fault : FileFault) :
    (Error.ofFile toError fault).aboutFiles = true := by
  unfold Error.ofFile
  split
  · rfl
  · exact h _

/-- A fault of a document in a file is reported as an error about files. -/
theorem Error.aboutFiles_ofDocument {toError : DocumentFault → Error}
    (h : ∀ fault, (toError fault).aboutFiles = true) (fault : DocumentFault) :
    (Error.ofDocument toError fault).aboutFiles = true := by
  unfold Error.ofDocument
  split
  · rfl
  · exact h fault

namespace Job

variable {α β : Type} {before after : Disk} {e : Error}

/-- A job on a disk fails with an error. -/
def Fails (x : Job (StateM Disk) α) (before : Disk) (e : Error) : Prop :=
  (x before).1.result = .error e

theorem ofOutcome_fails_iff {x : Outcome α} :
    Fails (ofOutcome x) before e ↔ x.result = .error e := Iff.rfl

theorem not_fails_pure (a : α) : ¬ Fails (pure a) before e := nofun

theorem not_fails_note (event : Event) : ¬ Fails (note event) before e := nofun

/-- A sequence fails exactly when its first part does, or its second part after the first one. -/
theorem bind_fails_iff {x : Job (StateM Disk) α} {f : α → Job (StateM Disk) β} :
    Fails (x >>= f) before e ↔
      Fails x before e ∨ ∃ a middle, Ends x before a middle ∧ Fails (f a) middle e := by
  unfold Fails Ends
  cases hresult : (x before).1.result with
  | error e' =>
      rw [bind_of_error hresult]
      simp
  | ok a =>
      rw [bind_of_ok hresult]
      simp

/-- A step that is made or left out fails itself, or what follows does. When the step is quiet, what
follows starts on the same disk. -/
theorem fails_of_optional {step : Job (StateM Disk) β} {x : Job (StateM Disk) α}
    {condition : Prop} [Decidable condition] (hstep : Quiet step)
    (h : Fails (if condition then step >>= fun _ => x else x) before e) :
    (condition ∧ Fails step before e) ∨ Fails x before e := by
  split at h
  · rename_i hcondition
    rcases bind_fails_iff.1 h with hfirst | ⟨made, middle, hmade, hrest⟩
    · exact Or.inl ⟨hcondition, hfirst⟩
    · obtain rfl := hmade.of_quiet hstep
      exact Or.inr hrest
  · exact Or.inr h

/-! ## Jobs that fail over files only -/

/-- Every error of a job is about files. -/
def FailsOverFiles (x : Job (StateM Disk) α) : Prop :=
  ∀ before e, Fails x before e → e.aboutFiles = true

theorem failsOverFiles_pure (a : α) : FailsOverFiles (pure a) := nofun

theorem failsOverFiles_note (event : Event) : FailsOverFiles (note event) := nofun

theorem failsOverFiles_attempt {ε : Type} {x : StateM Disk (Except ε α)} {toError : ε → Error}
    (h : ∀ fault, (toError fault).aboutFiles = true) : FailsOverFiles (attempt x toError) := by
  intro before e hfails
  replace hfails : ((x before).1.mapError toError) = .error e := hfails
  cases hresult : (x before).1 with
  | error fault =>
      rw [hresult] at hfails
      cases hfails
      exact h fault
  | ok a =>
      rw [hresult] at hfails
      cases hfails

/-- A sequence of jobs that fail over files only does so too. -/
theorem FailsOverFiles.bind {x : Job (StateM Disk) α} {f : α → Job (StateM Disk) β}
    (hx : FailsOverFiles x) (hf : ∀ a, FailsOverFiles (f a)) : FailsOverFiles (x >>= f) := by
  intro before e h
  rcases bind_fails_iff.1 h with hfirst | ⟨a, middle, -, hrest⟩
  · exact hx before e hfirst
  · exact hf a middle e hrest

end Job

namespace Files

open Disk (files)

variable {before : Disk} {e : Error}

/-! ## Before the stages -/

theorem failsOverFiles_loadDocument (path : Path) (name : String) :
    Job.FailsOverFiles (files.loadDocument path name) :=
  Job.failsOverFiles_attempt (Error.aboutFiles_ofDocument fun _ => rfl)

theorem failsOverFiles_loadDocuments (paths : List Path) :
    Job.FailsOverFiles (files.loadDocuments paths) := by
  induction paths with
  | nil => exact Job.failsOverFiles_pure _
  | cons path rest ih =>
      exact (failsOverFiles_loadDocument path path.text).bind fun document =>
        ih.bind fun documents => Job.failsOverFiles_pure _

/-- The document of a build fails to load over files only. -/
theorem failsOverFiles_loadTokens (config : BuildConfig) :
    Job.FailsOverFiles (files.loadTokens config) := by
  refine (failsOverFiles_loadDocument _ _).bind fun document => ?_
  split
  · exact Job.failsOverFiles_pure _
  · exact (failsOverFiles_loadDocuments _).bind fun layers =>
      (Job.failsOverFiles_note _).bind fun _ => Job.failsOverFiles_pure _

/-- Versions are refused for what the manifests are and hold. -/
theorem failsOverFiles_ensureSynchronized (package project : Path) (projectName : String) :
    Job.FailsOverFiles (files.ensureSynchronized package project projectName) := by
  have hpackage : Job.FailsOverFiles (files.packageVersion package) :=
    (Job.failsOverFiles_attempt (Error.aboutFiles_ofDocument fun _ => rfl)).bind fun _ =>
      Job.failsOverFiles_pure _
  have hproject : Job.FailsOverFiles (files.projectVersion project) :=
    (Job.failsOverFiles_attempt (Error.aboutFiles_ofDocument fun _ => rfl)).bind fun _ =>
      Job.failsOverFiles_pure _
  have hcheck : Job.FailsOverFiles (files.checkVersions package project) :=
    hpackage.bind fun _ => hproject.bind fun _ => Job.failsOverFiles_pure _
  refine hcheck.bind fun status => ?_
  split
  · exact (Job.failsOverFiles_note _).bind fun _ => Job.failsOverFiles_pure _
  · split
    · exact (Job.failsOverFiles_note _).bind fun _ => Job.failsOverFiles_pure _
    · intro before e h
      cases Job.ofOutcome_fails_iff.1 h
      rfl

/-- Reports do not fail. -/
theorem not_fails_report (events : List Event) :
    ¬ Job.Fails (report events : Job (StateM Disk) Unit) before e := by
  intro h
  have hends : Job.Ends (report events : Job (StateM Disk) Unit) before () before :=
    report_ends events
  cases h.symm.trans hends.1

/-- A document is refused with its errors. -/
theorem checkDocument_fails {document : Fields Json} {product : String}
    (h : Job.Fails (checkDocument document product) before e) :
    e = .invalidStructure (validate document product).errors := by
  rcases Job.bind_fails_iff.1 h with hreport | ⟨told, middle, -, hcheck⟩
  · exact (not_fails_report _ hreport).elim
  · replace hcheck : (validate document product).check = .error e := hcheck
    unfold Report.check at hcheck
    split at hcheck
    · cases hcheck
    · exact (Except.error.inj hcheck).symm

/-! ## The stages -/

theorem failsOverFiles_writeOutputs (outputs : List Output) :
    Job.FailsOverFiles (files.writeOutputs outputs) := by
  induction outputs with
  | nil => exact Job.failsOverFiles_pure _
  | cons output rest ih =>
      have hwrite : Job.FailsOverFiles (files.writeOutput output.path output.text
          (.ofFile (.outputFile output.path.text))) :=
        (Job.failsOverFiles_attempt (Error.aboutFiles_ofFile fun _ => rfl)).bind fun _ =>
          Job.failsOverFiles_note _
      exact hwrite.bind fun _ => ih.bind fun _ => Job.failsOverFiles_pure _

/-- Stages that are carried out fail over files, or with the error of one of them. -/
theorem carryOut_fails {stages : List Stage} (h : Job.Fails (files.carryOut stages) before e) :
    e.aboutFiles = true ∨ ∃ stage ∈ stages, stage.result = .error e := by
  induction stages generalizing before with
  | nil => exact (Job.not_fails_pure _ h).elim
  | cons stage rest ih =>
      rcases Job.bind_fails_iff.1 h with hstage | ⟨batch, ready, -, hbelow⟩
      · exact Or.inr ⟨stage, List.mem_cons_self, Job.ofOutcome_fails_iff.1 hstage⟩
      rcases Job.bind_fails_iff.1 hbelow with houtputs | ⟨paths, written, -, hreported⟩
      · exact Or.inl (failsOverFiles_writeOutputs _ _ _ houtputs)
      rcases Job.bind_fails_iff.1 hreported with hreport | ⟨told, last, -, hlater⟩
      · exact (not_fails_report _ hreport).elim
      rcases Job.bind_fails_iff.1 hlater with hrest | ⟨later, final, -, hend⟩
      · rcases ih hrest with hfiles | ⟨other, hother, hresult⟩
        · exact Or.inl hfiles
        · exact Or.inr ⟨other, List.mem_cons_of_mem _ hother, hresult⟩
      · exact (Job.not_fails_pure _ hend).elim

/-! ## The whole build -/

/-- A build fails once its document is accepted over files, with the error of the walk of its source
tree, or with the error of a stage. -/
theorem buildStages_fails {config : BuildConfig} {now : Moment} {document : Fields Json}
    (h : Job.Fails (files.buildStages config now document) before e) :
    e.aboutFiles = true ∨
      ((ProductTokens.extract document config.product config.scopeId).source.walk
        .qualified "").result = .error e ∨
      ∃ stage ∈ config.stages document now, stage.result = .error e := by
  rcases Job.bind_fails_iff.1 h with hwalk | ⟨entries, walked, -, hcarried⟩
  · exact Or.inr (Or.inl (Job.ofOutcome_fails_iff.1 hwalk))
  rcases Job.bind_fails_iff.1 hcarried with hcarry | ⟨written, last, -, hreported⟩
  · exact (carryOut_fails hcarry).imp_right Or.inr
  rcases Job.bind_fails_iff.1 hreported with hnote | ⟨told, final, -, hend⟩
  · exact (Job.not_fails_note _ hnote).elim
  · exact (Job.not_fails_pure _ hend).elim

/-- A build that fails does so over files, or it loads its document and then refuses it, finds an
error in the walk of its source tree, or has a stage with that error. -/
theorem build_fails {config : BuildConfig} {now : Moment}
    (h : Job.Fails (files.build config now) before e) :
    e.aboutFiles = true ∨ ∃ document, Job.Ends (files.loadTokens config) before document before ∧
      ((config.validate = true ∧
          e = .invalidStructure (validate document config.product).errors) ∨
        ((ProductTokens.extract document config.product config.scopeId).source.walk
          .qualified "").result = .error e ∨
        ∃ stage ∈ config.stages document now, stage.result = .error e) := by
  rw [build_eq] at h
  rcases Job.bind_fails_iff.1 h with hstarted | ⟨started, ready, hstarted, hchecked⟩
  · exact (Job.not_fails_note _ hstarted).elim
  obtain rfl := Job.note_ends_iff.1 hstarted
  rcases Job.fails_of_optional (quiet_ensureSynchronized _ _ _) hchecked with
    ⟨-, hversions⟩ | hloaded
  · exact Or.inl (failsOverFiles_ensureSynchronized _ _ _ _ _ hversions)
  rcases Job.bind_fails_iff.1 hloaded with hload | ⟨document, middle, hload, haccepted⟩
  · exact Or.inl (failsOverFiles_loadTokens config _ _ hload)
  obtain rfl := hload.of_quiet (quiet_loadTokens config)
  rcases Job.fails_of_optional (quiet_checkDocument _ _) haccepted with
    ⟨hvalidate, hrefused⟩ | hstages
  · exact Or.inr ⟨document, hload, Or.inl ⟨hvalidate, checkDocument_fails hrefused⟩⟩
  · exact (buildStages_fails hstages).imp_right fun hlater => ⟨document, hload, Or.inr hlater⟩

end Files

end DesignTokens
