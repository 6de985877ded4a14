import DesignTokens.Proofs.Build.StageErrors
import DesignTokens.Proofs.Build.Writes
import DesignTokens.Proofs.Files.View

/-!
# Interrupted builds

A build works out twelve files, and writes them one after the other as their texts are ready. When
it fails, some of the first of them are written, each with the whole text worked out for it, and no
other file is changed: `build_fails_after`. Nothing is written by a build that is refused over its
manifests, its documents or the paths of its source tokens.
-/

namespace DesignTokens

/-- A file of a build: where it goes, and the text that is worked out for it. -/
structure PlannedFile where
  path : Path
  text : Outcome String

namespace PlannedFile

/-- The path of the file, and its text or the error for which there is none. -/
def made (file : PlannedFile) : Path × Except Error String :=
  (file.path, file.text.result)

end PlannedFile

/-- A file with a text that was worked out for it. -/
def completeFile (file : Path × String) : Path × Except Error String :=
  (file.1, .ok file.2)

namespace BuildConfig

/-- The files of a build, in the order in which they are written. -/
def plan (config : BuildConfig) (document : Fields Json) (now : Moment) : List PlannedFile :=
  let tokens := ProductTokens.extract document config.product config.scopeId
  let scope := some tokens.scope
  let product := config.product
  let css (name : String) (text : Outcome String) : PlannedFile :=
    ⟨config.outputPath "css" name, text⟩
  let stylesheet (selector : Selector) (scope : Option Scope) (g : Group) : Outcome String :=
    (g.stylesheet selector scope).andThen fun s => .done s.render
  let flat (selector : Selector) (scope : Option Scope) (table : AliasTable) (g : Group) :
      Outcome String :=
    (g.flatStylesheet selector scope (some (config.aliases table))).andThen fun s =>
      .done s.render
  let names (text : NameModule → String) : Outcome String :=
    tokens.source.tokenNames.andThen fun names => .done (text { names })
  let constants (className : String) (g : Group) : PlannedFile :=
    ⟨config.outputPath "csharp" (className ++ ".cs"),
      (g.constantUnit { className, namespaceName := config.namespaceName, scope } now).andThen
        fun u => .done u.render⟩
  [css (product ++ ".css") (stylesheet .root none tokens.source),
   css "light.css" (stylesheet .root scope tokens.light),
   css "dark.css" (stylesheet .dark scope tokens.dark),
   css (product ++ "-flat.css") (flat .root none .root tokens.source),
   css "dark-flat.css" (flat .dark scope .dark tokens.dark),
   ⟨config.outputPath "tailwind" (product ++ ".js"),
     tokens.source.utilityTheme.andThen fun theme => .done (UtilityTheme.render theme)⟩,
   ⟨config.outputPath "js" "index.js", names NameModule.script⟩,
   ⟨config.outputPath "js" "index.d.ts", names NameModule.declarations⟩,
   constants (config.classPrefix ++ "Tokens") tokens.source,
   constants "LightThemeTokens" tokens.light,
   constants "DarkThemeTokens" tokens.dark,
   ⟨config.outputPath "tokens" "index.json", .done ((Json.obj document).pretty .unicode)⟩]

theorem length_plan (config : BuildConfig) (document : Fields Json) (now : Moment) :
    (config.plan document now).length = 12 := rfl

end BuildConfig

/-! ## The files of stages -/

/-- A stage that succeeds makes the texts of some planned files. -/
structure Stage.Makes (stage : Stage) (plan : List PlannedFile) : Prop where
  ne_nil : plan ≠ []
  made : ∀ batch, stage.result = .ok batch →
    (batch.outputs.map Output.file).map completeFile = plan.map PlannedFile.made

/-- A stage of one file makes it. -/
theorem Stage.makes_single (path : Path) (text : Outcome String) :
    (single path text).Makes [⟨path, text⟩] where
  ne_nil := List.cons_ne_nil _ _
  made batch h := by
    obtain ⟨content, hcontent, rfl⟩ := Outcome.andThen_done_eq_ok_iff.1 h
    simp only [List.map_singleton, PlannedFile.made, hcontent]
    rfl

namespace BuildConfig

variable {config : BuildConfig} {document : Fields Json} {now : Moment}

/-- The stage of both modules of token names makes them. -/
theorem makes_namesStage (config : BuildConfig) (g : Group) :
    (config.namesStage g).Makes
      [⟨config.outputPath "js" "index.js",
          g.tokenNames.andThen fun names => .done { names : NameModule }.script⟩,
        ⟨config.outputPath "js" "index.d.ts",
          g.tokenNames.andThen fun names => .done { names : NameModule }.declarations⟩] where
  ne_nil := List.cons_ne_nil _ _
  made batch h := by
    obtain ⟨names, hnames, rfl⟩ := Outcome.andThen_done_eq_ok_iff.1 h
    simp only [List.map_cons, List.map_nil, PlannedFile.made, Outcome.andThen_result, hnames]
    rfl

/-- The stages of a build make the planned files, in order. -/
theorem exists_parts (config : BuildConfig) (document : Fields Json) (now : Moment) :
    ∃ parts, List.Forall₂ Stage.Makes (config.stages document now) parts ∧
      parts.flatten = config.plan document now := by
  have single := Stage.makes_single
  unfold stages
  exact ⟨_, .cons (single _ _) (.cons (single _ _) (.cons (single _ _) (.cons (single _ _)
    (.cons (single _ _) (.cons (single _ _) (.cons (makes_namesStage _ _) (.cons (single _ _)
    (.cons (single _ _) (.cons (single _ _) (.cons (single _ _) .nil)))))))))), rfl⟩

end BuildConfig

/-! ## Errors and what they interrupt -/

/-- The error is one of what a build does before it works out its files. -/
def Error.beforeOutputs : Error → Bool
  | .manifest .. | .versionMismatch .. | .tokenFile .. | .invalidStructure _ => true
  | _ => false

/-- A fault of an output file is reported as that. -/
theorem Error.not_beforeOutputs_ofFile (path : String) (fault : FileFault) :
    (ofFile (.outputFile path) fault).beforeOutputs = false := by
  unfold ofFile
  split <;> rfl

/-- Stages fail over tokens, and over nothing that comes before them. -/
theorem BuildConfig.not_beforeOutputs_of_stage {config : BuildConfig} {document : Fields Json}
    {now : Moment} {stage : Stage} {e : Error} (hstage : stage ∈ config.stages document now)
    (h : stage.result = .error e) : e.beforeOutputs = false := by
  obtain ⟨g, -, scope, -, style, hresolved⟩ | ⟨_, _, _, _, rfl⟩ | ⟨_, rfl⟩ :=
    exists_tree_of_stage_error hstage h
  · obtain ⟨path, rfl⟩ | ⟨_, _, _, _, _, _, rfl⟩ := Group.resolved_eq_error hresolved
    · rfl
    · rfl
  · rfl
  · rfl

namespace Files

variable {σ : Type} {files : Files (StateM σ)} {view : σ → FileView} {e : Error}

/-- Reports are made in order, and do nothing to the state. -/
theorem report_apply (events : List Event) (s : σ) :
    (report events : Job (StateM σ) Unit) s = (⟨events, .ok ()⟩, s) := by
  induction events with
  | nil => rfl
  | cons event rest ih =>
      have hnote : (Job.note event : Job (StateM σ) Unit) s = (⟨[event], .ok ()⟩, s) := rfl
      rw [report, Job.bind_of_ok (congrArg (Outcome.result ∘ Prod.fst) hnote), hnote, ih]
      rfl

/-- An output is written whole, or is refused and changes no file. -/
theorem Shows.writeOutput (h : files.Shows view) (path : Path) (text : String)
    (toError : FileFault → Error) (s : σ) :
    ((files.writeOutput path text toError s).1.result = .ok () ∧
        view (files.writeOutput path text toError s).2 = (view s).write path text) ∨
      ∃ fault, (files.writeOutput path text toError s).1.result = .error (toError fault) ∧
        view (files.writeOutput path text toError s).2 = view s := by
  let write : Job (StateM σ) Unit := Job.attempt (files.writeBelow path text) toError
  have hresult : (write s).1.result = (files.writeBelow path text s).1.mapError toError := rfl
  have hstate : (write s).2 = (files.writeBelow path text s).2 := rfl
  rw [Files.writeOutput]
  obtain ⟨hwrite, hview⟩ | ⟨fault, hwrite, hview⟩ := h.writeBelow path text s
  · rw [hwrite] at hresult
    rw [Job.bind_of_ok hresult]
    exact Or.inl ⟨rfl, hview⟩
  · rw [hwrite] at hresult
    rw [Job.bind_of_error hresult]
    exact Or.inr ⟨fault, rfl, hview⟩

/-- Outputs are written in order. When one is refused, those before it are written. -/
theorem Shows.writeOutputs (h : files.Shows view) (outputs : List Output) (s : σ) :
    ((∃ paths, (files.writeOutputs outputs s).1.result = .ok paths) ∧
        view (files.writeOutputs outputs s).2 = (view s).writeAll (outputs.map Output.file)) ∨
      ∃ e written, (files.writeOutputs outputs s).1.result = .error e ∧
        e.beforeOutputs = false ∧ written <+: outputs.map Output.file ∧
        written.length < outputs.length ∧
        view (files.writeOutputs outputs s).2 = (view s).writeAll written := by
  induction outputs generalizing s with
  | nil => exact Or.inl ⟨⟨[], rfl⟩, rfl⟩
  | cons output rest ih =>
      have hbefore := Error.not_beforeOutputs_ofFile output.path.text
      obtain ⟨hok, hview⟩ | ⟨fault, hfault, hview⟩ := h.writeOutput output.path output.text
        (.ofFile (.outputFile output.path.text)) s
      · rw [Files.writeOutputs, Job.bind_of_ok hok]
        generalize (files.writeOutput output.path output.text _ s).2 = t at *
        obtain ⟨⟨paths, hpaths⟩, hlater⟩ | ⟨e, written, herror, hafter, hfront, hlength, hlater⟩ :=
          ih t
        · rw [Job.bind_of_ok hpaths]
          refine Or.inl ⟨⟨_, rfl⟩, hlater.trans ?_⟩
          rw [hview]
          rfl
        · rw [Job.bind_of_error herror]
          refine Or.inr ⟨e, output.file :: written, rfl, hafter, ?_, Nat.succ_lt_succ hlength,
            hlater.trans ?_⟩
          · exact (List.prefix_cons_inj _).2 hfront
          · rw [hview]
            rfl
      · rw [Files.writeOutputs, Job.bind_of_error hfault]
        exact Or.inr ⟨_, [], rfl, hbefore fault, List.nil_prefix, Nat.succ_pos _, hview⟩

/-- What is done with the files of a stage and with the stages after it. -/
def carryBatch {m : Type → Type} [Monad m] (files : Files m) (batch : Batch)
    (rest : Job m (List Path)) : Job m (List Path) := do
  let written ← files.writeOutputs batch.outputs
  report batch.events
  let later ← rest
  return written ++ later

theorem carryOut_cons (stage : Stage) (rest : List Stage) :
    files.carryOut (stage :: rest) =
      Job.ofOutcome stage >>= fun batch => files.carryBatch batch (files.carryOut rest) := rfl

/-- When a stage or what comes after it fails, some of its files are written, or all of them. -/
theorem Shows.carryBatch_fails (h : files.Shows view) {batch : Batch}
    {rest : Job (StateM σ) (List Path)} {s : σ}
    (hfails : (files.carryBatch batch rest s).1.result = .error e) :
    (e.beforeOutputs = false ∧
        ∃ written, view (files.carryBatch batch rest s).2 = (view s).writeAll written ∧
          written <+: batch.outputs.map Output.file ∧ written.length < batch.outputs.length) ∨
      ∃ t, view t = (view s).writeAll (batch.outputs.map Output.file) ∧
        (rest t).1.result = .error e ∧ (files.carryBatch batch rest s).2 = (rest t).2 := by
  rw [carryBatch] at hfails ⊢
  obtain ⟨⟨paths, hpaths⟩, hview⟩ | ⟨e', written, herror, hafter, hfront, hshort, hview⟩ :=
    h.writeOutputs batch.outputs s
  · rw [Job.bind_of_ok hpaths] at hfails ⊢
    generalize (files.writeOutputs batch.outputs s).2 = t at *
    have hreport := report_apply batch.events t
    rw [Job.bind_of_ok (congrArg (Outcome.result ∘ Prod.fst) hreport), hreport] at hfails ⊢
    obtain ⟨hrest, hrun⟩ | ⟨later, -, hend, -⟩ := Job.bind_fails_cases hfails
    · refine Or.inr ⟨t, hview, hrest, ?_⟩
      exact (congrArg Prod.snd hrun :)
    · cases hend
  · rw [Job.bind_of_error herror] at hfails ⊢
    obtain rfl : e' = e := Except.error.inj hfails
    exact Or.inl ⟨hafter, written, hview, hfront, hshort⟩

/-- When stages fail, some of the first of their files are written, and the others are not. -/
theorem Shows.carryOut_fails (h : files.Shows view) {stages : List Stage}
    {parts : List (List PlannedFile)} (hmakes : List.Forall₂ Stage.Makes stages parts) {s : σ}
    (hfails : (files.carryOut stages s).1.result = .error e) :
    (e.beforeOutputs = false ∨ ∃ stage ∈ stages, stage.result = .error e) ∧
      ∃ written, view (files.carryOut stages s).2 = (view s).writeAll written ∧
        written.length < parts.flatten.length ∧
        written.map completeFile <+: parts.flatten.map PlannedFile.made := by
  induction hmakes generalizing s with
  | nil => cases hfails
  | @cons stage part stages parts hstage hlater ih =>
      have hpart : 0 < part.length := List.length_pos_iff.2 hstage.ne_nil
      rw [List.flatten_cons, List.length_append, List.map_append]
      rw [carryOut_cons] at hfails ⊢
      obtain ⟨hresult, hrun⟩ | ⟨batch, hbatch, hfails, hrun⟩ := Job.bind_fails_cases hfails
      · rw [hrun]
        exact ⟨Or.inr ⟨stage, List.mem_cons_self, hresult⟩, [], rfl, by simp; omega,
          List.nil_prefix⟩
      have hmade := hstage.made batch hbatch
      have hlength : part.length = batch.outputs.length := by
        simpa using congrArg List.length hmade.symm
      rw [hrun]
      replace hfails :
          (files.carryBatch batch (files.carryOut stages) s).1.result = .error e := hfails
      obtain ⟨hcause, written, hview, hfront, hshort⟩ | ⟨t, hview, hrest, hend⟩ :=
        h.carryBatch_fails hfails
      · refine ⟨Or.inl hcause, written, hview, by omega, ?_⟩
        rw [← hmade]
        exact (hfront.map completeFile).trans (List.prefix_append _ _)
      · -- All files of the stage are written, so the others are some of the first that are left.
        obtain ⟨hcause, written, hlast, hshort, hfront⟩ := ih hrest
        refine ⟨hcause.imp_right ?_, batch.outputs.map Output.file ++ written, ?_, ?_, ?_⟩
        · rintro ⟨other, hother, hresult⟩
          exact ⟨other, List.mem_cons_of_mem _ hother, hresult⟩
        · rw [FileView.writeAll_append, ← hview, ← hlast]
          exact (congrArg view hend :)
        · rw [List.length_append, List.length_map]
          omega
        · rw [List.map_append, hmade]
          exact (List.prefix_append_right_inj _).2 hfront

/-! ## The whole build -/

section

variable {m : Type → Type} [Monad m]

/-- Load the document of a build, and validate it when the build has to. -/
def acceptTokens (files : Files m) (config : BuildConfig) : Job m (Fields Json) := do
  let document ← files.loadTokens config
  if config.validate then
    checkDocument document config.product
  return document

/-- What a build does before it works out its files. -/
def acceptDocument (files : Files m) (config : BuildConfig) : Job m (Fields Json) := do
  Job.note .buildStarted
  if config.checkVersions then
    let _ ← files.ensureSynchronized config.packagePath config.projectPath
      config.projectPath.text
  files.acceptTokens config

end

/-- A build accepts its document, and goes on with its stages. -/
theorem build_eq_acceptDocument (config : BuildConfig) (now : Moment) :
    files.build config now = files.acceptDocument config >>= files.buildStages config now := by
  have htokens : files.buildLoaded config now =
      files.acceptTokens config >>= files.buildStages config now := by
    rw [buildLoaded, acceptTokens, bind_assoc]
    refine congrArg _ (funext fun document => ?_)
    split
    · simp only [bind_assoc, pure_bind]
    · simp only [pure_bind]
  rw [build_eq, acceptDocument, bind_assoc, htokens]
  refine congrArg _ (funext fun started => ?_)
  split
  · simp only [bind_assoc]
  · rfl

/-- Accepting a document leads where reading octets does. -/
theorem along_acceptDocument {R : σ → σ → Prop} [IsPreorder σ R]
    (hread : ∀ path, Along R (files.read path)) (config : BuildConfig) :
    Job.Along R (files.acceptDocument config) := by
  have htokens : Job.Along R (files.acceptTokens config) := by
    refine (along_loadTokens hread config).bind fun document => ?_
    split
    · exact (along_checkDocument _ _).bind fun _ => Job.along_pure _
    · exact Job.along_pure _
  refine (Job.along_note _).bind fun started => ?_
  dsimp only
  split
  · exact (along_ensureSynchronized hread _ _ _).bind fun _ => htokens
  · exact htokens

/-- When the stages of a build fail, some of the first of its files are written. There are none when
a walk of its source tree fails. -/
theorem Shows.buildStages_fails (h : files.Shows view) {config : BuildConfig} {now : Moment}
    {document : Fields Json} {s : σ}
    (hfails : (files.buildStages config now document s).1.result = .error e) :
    let source := (ProductTokens.extract document config.product config.scopeId).source
    e.beforeOutputs = false ∧
      ∃ written, view (files.buildStages config now document s).2 = (view s).writeAll written ∧
        written.length < 12 ∧
        written.map completeFile <+: (config.plan document now).map PlannedFile.made ∧
        ∀ style fault, (source.walk style "").result = .error fault → written = [] := by
  intro source
  obtain ⟨hwalk, hrun⟩ | ⟨entries, hentries, hfails, hrun⟩ := Job.bind_fails_cases hfails
  · obtain ⟨path, rfl⟩ := Group.walk_eq_error hwalk
    refine ⟨rfl, [], ?_, Nat.succ_pos _, List.nil_prefix, fun _ _ _ => rfl⟩
    rw [buildStages, hrun]
    rfl
  rw [buildStages, hrun]
  -- After the stages there is only a report, so it is they that fail.
  obtain ⟨hcarry, hend⟩ | ⟨paths, -, hnone, -⟩ := Job.bind_fails_cases hfails
  swap
  · cases hnone
  obtain ⟨parts, hmakes, hplan⟩ := config.exists_parts document now
  obtain ⟨hcause, written, hview, hlength, hfront⟩ := h.carryOut_fails hmakes hcarry
  rw [hplan] at hlength hfront
  rw [BuildConfig.length_plan] at hlength
  refine ⟨?_, written, ?_, hlength, hfront, fun style fault hfault => ?_⟩
  · obtain houtput | ⟨stage, hstage, hresult⟩ := hcause
    · exact houtput
    · exact BuildConfig.not_beforeOutputs_of_stage hstage hresult
  · rw [hend]
    exact hview
  cases style with
  | qualified => cases hfault.symm.trans hentries
  | collapsed =>
      -- The first file is made from this walk, so there is no text for it.
      have hfirst : ((source.stylesheet .root none).andThen fun sheet =>
          .done sheet.render).result = .error fault :=
        Outcome.andThen_done_eq_error_iff.2
          (Group.stylesheet_eq_error_iff.2 (Outcome.andThen_eq_error_iff.2 (Or.inl hfault)))
      cases written with
      | nil => rfl
      | cons file rest =>
          have hhead := (List.cons_prefix_cons.1 hfront).1
          cases (congrArg Prod.snd hhead).trans hfirst

/-- When a build fails, the files are changed by some of the first of its twelve, each with the
whole text worked out for it. None is written unless its document is accepted, and none when its
error is one of what comes before, or when a walk of its source tree fails. -/
theorem build_fails_after (h : files.Shows view) {config : BuildConfig} {now : Moment} {s : σ}
    (hfails : (files.build config now s).1.result = .error e) :
    let accepted := (files.acceptDocument config s).1.result
    ∃ written, view (files.build config now s).2 = (view s).writeAll written ∧
      written.length < 12 ∧
      (e.beforeOutputs = true → written = []) ∧
      ((∀ document, accepted ≠ .ok document) → written = []) ∧
      ∀ document, accepted = .ok document →
        written.map completeFile <+: (config.plan document now).map PlannedFile.made ∧
        ∀ style fault, ((ProductTokens.extract document config.product
          config.scopeId).source.walk style "").result = .error fault → written = [] := by
  intro accepted
  have hread : view (files.acceptDocument config s).2 = view s :=
    along_acceptDocument (R := fun s t => view t = view s) h.read config s
  rw [build_eq_acceptDocument] at hfails ⊢
  obtain ⟨hrefused, hrun⟩ | ⟨document, hdocument, hstages, hrun⟩ := Job.bind_fails_cases hfails
  · refine ⟨[], ?_, Nat.succ_pos _, fun _ => rfl, fun _ => rfl, fun document hdocument => ?_⟩
    · rw [hrun]
      exact hread
    · cases hrefused.symm.trans hdocument
  · obtain ⟨hafter, written, hview, hlength, hfront, hsource⟩ := h.buildStages_fails hstages
    refine ⟨written, ?_, hlength, fun hbefore => ?_, fun hnone => ?_, fun other hother => ?_⟩
    · rw [hrun, ← hread]
      exact hview
    · rw [hafter] at hbefore
      cases hbefore
    · exact (hnone document hdocument).elim
    · obtain rfl : document = other := Except.ok.inj (hdocument.symm.trans hother)
      exact ⟨hfront, hsource⟩

end Files

/-! ## An output that may not be written -/

namespace LockedOutput

/-- A disk with an empty document, where the third file of a build may not be written. -/
def disk : Disk :=
  { entries := [(["t"], .file "\x7b\x7d".toUTF8)]
    locked := ["o/css/dark.css"] }

/-- The build of that document. -/
def config : BuildConfig :=
  { tokensPath := ⟨"", ["t"]⟩, product := "p", outputFolder := ⟨"", ["o"]⟩, checkVersions := false }

/-- The moment of the build. -/
def now : Moment :=
  ⟨⟨2024, 1, 2⟩, 3, 4, 5, 678901, some 0⟩

/-- The document is accepted. -/
theorem accepts : (Disk.files.acceptDocument config disk).1.result = .ok [] := by
  decide +kernel

/-- The file is refused. -/
def refusal : Error :=
  .outputFile "o/css/dark.css" (.refused .denied "o/css/dark.css")

/-- The build fails over the file. -/
theorem fails : (Disk.files.build config now disk).1.result = .error refusal := by
  decide +kernel

end LockedOutput

open LockedOutput in
/-- A build that may not write one of its files changes some of the first of them, and no others. -/
theorem locked_output_interrupts :
    (Disk.files.build config now disk).1.result = .error refusal ∧
      (Disk.files.acceptDocument config disk).1.result = .ok [] ∧
      ∃ written, (Disk.files.build config now disk).2.view = disk.view.writeAll written ∧
        written.length < 12 ∧
        written.map completeFile <+: (config.plan [] now).map PlannedFile.made := by
  obtain ⟨written, hview, hlength, -, -, hfront⟩ :=
    Files.build_fails_after Disk.shows_view fails
  exact ⟨fails, accepts, written, hview, hlength, (hfront [] accepts).1⟩

end DesignTokens
