import DesignTokens.Proofs.Build.Writes
import DesignTokens.Proofs.Target.Values

/-!
# The values of one build

A build makes a stylesheet and a unit of constants from each of its trees. After a build whose files
are at different locations the two of each theme tree give every name the same value, and those of
the source tree do so exactly when the scope redirects no source color: `build_sameValues_iff`. The
stylesheet of the source tree is made without the scope that the unit is made with, so a source
color that refers to another one is kept in the one and resolved in the other
(`source_alias_has_two_values`).
-/

namespace DesignTokens

/-- A stage of one file succeeds when its text can be made, and puts it at its path. -/
theorem Stage.single_eq_ok {path : Path} {text : Outcome String} {batch : Batch}
    (h : (single path text).result = .ok batch) :
    ∃ made, text.result = .ok made ∧ batch.outputs = [⟨path, made⟩] := by
  obtain ⟨made, hmade, rfl⟩ := Outcome.andThen_done_eq_ok_iff.1 h
  exact ⟨made, hmade, rfl⟩

/-- Once stages are carried out at different locations, the file of a stage that renders something
holds it. -/
theorem Files.holds_rendered {stages : List Stage} {before after : Disk} {written : List Path}
    (h : Job.Ends (Disk.files.carryOut stages) before written after)
    (hdistinct : (written.map after.locate).Nodup) {α : Type} {path : Path} {x : Outcome α}
    {render : α → String}
    (hstage : Stage.single path (x.andThen fun a => .done (render a)) ∈ stages) :
    ∃ a, x.result = .ok a ∧ after.readOctets path = .ok (render a).toUTF8 := by
  obtain ⟨batch, hbatch, hfiles⟩ := holds_of_carryOut h hdistinct hstage
  obtain ⟨made, hmade, houtputs⟩ := Stage.single_eq_ok hbatch
  obtain ⟨a, ha, rfl⟩ := Outcome.andThen_done_eq_ok_iff.1 hmade
  have hfile := hfiles ⟨path, render a⟩ (by rw [houtputs]; exact List.mem_singleton_self _)
  exact ⟨a, ha, hfile⟩

/-- The files of a build that are made from one tree: its stylesheet and its unit of constants. -/
structure TreeFiles where
  tree : Group
  selector : Selector
  /-- The scope that the stylesheet is made with. -/
  scope : Option Scope
  sheetName : String
  className : String

namespace BuildConfig

/-- What names the units of a build and fixes their values. -/
def unitConfig (config : BuildConfig) (className : String) (scope : Scope) : UnitConfig :=
  { className, namespaceName := config.namespaceName, scope := some scope }

/-- The files made from the source tree. -/
def sourceFiles (config : BuildConfig) (tokens : ProductTokens) : TreeFiles :=
  ⟨tokens.source, .root, none, config.product ++ ".css", config.classPrefix ++ "Tokens"⟩

/-- The files made from the tree of the light theme. -/
def lightFiles (tokens : ProductTokens) : TreeFiles :=
  ⟨tokens.light, .root, some tokens.scope, "light.css", "LightThemeTokens"⟩

/-- The files made from the tree of the dark theme. -/
def darkFiles (tokens : ProductTokens) : TreeFiles :=
  ⟨tokens.dark, .dark, some tokens.scope, "dark.css", "DarkThemeTokens"⟩

end BuildConfig

/-- A disk holds the files of a tree: the stylesheet and the unit made from it, at their paths. -/
structure TreeFiles.HeldBy (f : TreeFiles) (disk : Disk) (config : BuildConfig) (scope : Scope)
    (now : Moment) (s : Stylesheet) (u : ConstantUnit) : Prop where
  stylesheet : (f.tree.stylesheet f.selector f.scope).result = .ok s
  unit : (f.tree.constantUnit (config.unitConfig f.className scope) now).result = .ok u
  sheetFile : disk.readOctets (config.outputPath "css" f.sheetName) = .ok s.render.toUTF8
  unitFile : disk.readOctets (config.outputPath "csharp" (f.className ++ ".cs")) =
    .ok u.render.toUTF8

/-- Once the stages of a build are carried out at different locations, the disk holds the files of a
tree whose two stages are among them. -/
theorem TreeFiles.held_of_carryOut {stages : List Stage} {before after : Disk} {written : List Path}
    (h : Job.Ends (Disk.files.carryOut stages) before written after)
    (hdistinct : (written.map after.locate).Nodup) {config : BuildConfig} {scope : Scope}
    {now : Moment} {f : TreeFiles}
    (hsheet : config.stylesheetStage f.sheetName f.selector f.scope f.tree ∈ stages)
    (hunit : config.constantsStage f.className scope now f.tree ∈ stages) :
    ∃ s u, f.HeldBy after config scope now s u := by
  obtain ⟨s, hs, hsheetFile⟩ := Files.holds_rendered h hdistinct hsheet
  obtain ⟨u, hu, hunitFile⟩ := Files.holds_rendered h hdistinct hunit
  exact ⟨s, u, hs, hu, hsheetFile, hunitFile⟩

/-- After a build whose files are at different locations, the disk holds the files of its three
trees. -/
theorem files_held_of_build {config : BuildConfig} {now : Moment} {before after : Disk}
    {result : BuildResult} (h : Job.Ends (Disk.files.build config now) before result after)
    (hdistinct : (result.written.map after.locate).Nodup) :
    ∃ document, Job.Ends (Disk.files.loadTokens config) before document before ∧
      let tokens := ProductTokens.extract document config.product config.scopeId
      (∃ s u, (config.sourceFiles tokens).HeldBy after config tokens.scope now s u) ∧
        (∃ s u, (BuildConfig.lightFiles tokens).HeldBy after config tokens.scope now s u) ∧
        ∃ s u, (BuildConfig.darkFiles tokens).HeldBy after config tokens.scope now s u := by
  obtain ⟨document, hload, hcarry⟩ := Files.build_ends h
  refine ⟨document, hload, ?_, ?_, ?_⟩
  all_goals
    refine TreeFiles.held_of_carryOut hcarry hdistinct ?_ ?_ <;>
      simp [BuildConfig.stages, BuildConfig.sourceFiles, BuildConfig.lightFiles,
        BuildConfig.darkFiles]

/-- The stylesheet and the unit of a theme tree give every name the same value, since both are made
with the scope. -/
theorem TreeFiles.HeldBy.sameValues {f : TreeFiles} {disk : Disk} {config : BuildConfig}
    {scope : Scope} {now : Moment} {s : Stylesheet} {u : ConstantUnit}
    (h : f.HeldBy disk config scope now s u) (hscope : f.scope = some scope) : SameValues s u := by
  refine (Group.sameValues_iff h.stylesheet h.unit).2 fun e _ => ?_
  rw [hscope]
  rfl

/-- The stylesheet and the unit of a tree whose stylesheet is made without a scope give every name
the same value exactly when the scope redirects no value of the tree. -/
theorem TreeFiles.HeldBy.sameValues_iff {f : TreeFiles} {disk : Disk} {config : BuildConfig}
    {scope : Scope} {now : Moment} {s : Stylesheet} {u : ConstantUnit}
    (h : f.HeldBy disk config scope now s u) (hscope : f.scope = none) :
    SameValues s u ↔ ∀ e ∈ f.tree.entries .collapsed "", ¬ scope.Redirects e.token.value := by
  rw [Group.sameValues_iff h.stylesheet h.unit]
  refine forall_congr' fun e => forall_congr' fun _ => ?_
  rw [hscope, denoted_none]
  exact display_denoted_iff

/-- After a build whose files are at different locations, the disk holds a stylesheet and a unit of
constants for the source tree and for both theme trees. The two of a theme tree give every name the
same value. Those of the source tree do so exactly when no source token is a reference to which the
scope gives another color. -/
theorem build_sameValues_iff {config : BuildConfig} {now : Moment} {before after : Disk}
    {result : BuildResult} (h : Job.Ends (Disk.files.build config now) before result after)
    (hdistinct : (result.written.map after.locate).Nodup) :
    ∃ document, Job.Ends (Disk.files.loadTokens config) before document before ∧
      let tokens := ProductTokens.extract document config.product config.scopeId
      (∃ s u, (BuildConfig.lightFiles tokens).HeldBy after config tokens.scope now s u ∧
          SameValues s u) ∧
        (∃ s u, (BuildConfig.darkFiles tokens).HeldBy after config tokens.scope now s u ∧
          SameValues s u) ∧
        ∃ s u, (config.sourceFiles tokens).HeldBy after config tokens.scope now s u ∧
          (SameValues s u ↔
            ∀ e ∈ tokens.source.entries .collapsed "", ¬ tokens.scope.Redirects e.token.value) := by
  obtain ⟨document, hload, ⟨s, u, hsource⟩, ⟨s', u', hlight⟩, s'', u'', hdark⟩ :=
    files_held_of_build h hdistinct
  exact ⟨document, hload, ⟨s', u', hlight, hlight.sameValues rfl⟩,
    ⟨s'', u'', hdark, hdark.sameValues rfl⟩, s, u, hsource, hsource.sameValues_iff rfl⟩

/-! ## A source color that refers to another one -/

namespace SourceAlias

/-- A document in which the source color `b` refers to the source color `a`. -/
def document : Fields Json :=
  [("p", .obj [("color", .obj
    [("a", .obj [("value", .str "#fff"), ("type", .str "color")]),
     ("b", .obj [("value", .str "\x7bp.source.color.a\x7d"), ("type", .str "color")])])])]

/-- A disk with the text of that document. -/
def disk : Disk :=
  { entries := [(["t"], .file ("\x7b\"p\":\x7b\"color\":\x7b" ++
      "\"a\":\x7b\"value\":\"#fff\",\"type\":\"color\"\x7d," ++
      "\"b\":\x7b\"value\":\"\x7bp.source.color.a\x7d\",\"type\":\"color\"\x7d" ++
      "\x7d\x7d\x7d").toUTF8)] }

/-- The build of that document. -/
def config : BuildConfig :=
  { tokensPath := ⟨"", ["t"]⟩, product := "p", outputFolder := ⟨"", ["o"]⟩, checkVersions := false }

/-- The moment of the build. -/
def now : Moment :=
  ⟨⟨2024, 1, 2⟩, 3, 4, 5, 678901, some 0⟩

/-- What the build gives. -/
def result : BuildResult :=
  { written :=
      [("css", "p.css"), ("css", "light.css"), ("css", "dark.css"), ("css", "p-flat.css"),
       ("css", "dark-flat.css"), ("tailwind", "p.js"), ("js", "index.js"), ("js", "index.d.ts"),
       ("csharp", "PTokens.cs"), ("csharp", "LightThemeTokens.cs"),
       ("csharp", "DarkThemeTokens.cs"), ("tokens", "index.json")].map fun file =>
        ⟨"", ["o", file.1, file.2]⟩
    tokenCount := 2 }

/-- The text on the disk is read as the document. -/
theorem reads : Disk.files.readObject config.tokensPath disk = (.ok document, disk) := by
  -- The characters are taken piece by piece, since those of a long text are slow to evaluate.
  refine Disk.readObject_of_text rfl ?_ ?_
  · simp only [String.toList_append]
    decide +kernel
  · simp only [String.toList_append]
    decide +kernel

/-- The build loads the document. -/
theorem loads : Job.Ends (Disk.files.loadTokens config) disk document disk :=
  Files.loadTokens_ends rfl reads

/-- The result of the build, and the different locations of its files. -/
theorem result_eq :
    (Disk.files.build config now disk).1.result = .ok result ∧
      (result.written.map (Disk.files.build config now disk).2.locate).Nodup := by
  have hstages : (Disk.files.build config now disk).1.result =
        (Disk.files.buildStages config now document disk).1.result ∧
      (Disk.files.build config now disk).2 = (Disk.files.buildStages config now document disk).2 :=
    Files.build_result_of_stages rfl loads nofun
  rw [hstages.1, hstages.2]
  decide +kernel

/-- The build succeeds. -/
theorem builds :
    Job.Ends (Disk.files.build config now) disk result (Disk.files.build config now disk).2 :=
  ⟨result_eq.1, rfl⟩

end SourceAlias

open SourceAlias in
/-- After the build of a document with an alias among its source colors, the files of each tree are
as `build_sameValues_iff` says. -/
theorem source_alias_sameValues_iff :
    let after := (Disk.files.build config now disk).2
    Job.Ends (Disk.files.build config now) disk result after ∧
      (result.written.map after.locate).Nodup ∧
      ∃ document, Job.Ends (Disk.files.loadTokens config) disk document disk ∧
        let tokens := ProductTokens.extract document config.product config.scopeId
        (∃ s u, (BuildConfig.lightFiles tokens).HeldBy after config tokens.scope now s u ∧
            SameValues s u) ∧
          (∃ s u, (BuildConfig.darkFiles tokens).HeldBy after config tokens.scope now s u ∧
            SameValues s u) ∧
          ∃ s u, (config.sourceFiles tokens).HeldBy after config tokens.scope now s u ∧
            (SameValues s u ↔
              ∀ e ∈ tokens.source.entries .collapsed "", ¬ tokens.scope.Redirects e.token.value) :=
  ⟨builds, result_eq.2, build_sameValues_iff builds result_eq.2⟩

open SourceAlias in
/-- Not every build gives the same values in its stylesheets and units: where a source color refers
to another one, the stylesheet of the source tree keeps the reference and the unit has the color. -/
theorem source_alias_has_two_values :
    ¬ ∀ (config : BuildConfig) (now : Moment) (before after : Disk) (result : BuildResult)
        (document : Fields Json),
      Job.Ends (Disk.files.build config now) before result after →
        (result.written.map after.locate).Nodup →
        Job.Ends (Disk.files.loadTokens config) before document before →
        let tokens := ProductTokens.extract document config.product config.scopeId
        ∀ f ∈ [config.sourceFiles tokens, BuildConfig.lightFiles tokens,
            BuildConfig.darkFiles tokens],
          ∀ s u, f.HeldBy after config tokens.scope now s u → SameValues s u := by
  intro h
  obtain ⟨loaded, hloaded, ⟨s, u, hsource⟩, -⟩ := files_held_of_build builds result_eq.2
  obtain rfl : document = loaded := Except.ok.inj (loads.1.symm.trans hloaded.1)
  have hsame := h config now disk _ result document builds result_eq.2 loads _
    List.mem_cons_self s u hsource
  -- The entry `color-b` of the source tree is the reference that the scope redirects.
  let reference : Token := ⟨.str "\x7bp.source.color.a\x7d", .str "color", .null, []⟩
  refine (hsource.sameValues_iff rfl).1 hsame ⟨"color-b", "b", reference⟩ ?_ ?_
  · exact List.mem_cons_of_mem _ List.mem_cons_self
  · exact ⟨⟨"\x7bp.source.color.a\x7d", "p", "a"⟩, .str "#fff", by decide +kernel, rfl, by decide⟩

end DesignTokens
