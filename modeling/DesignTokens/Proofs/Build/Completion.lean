import DesignTokens.Proofs.Build.Interruption
import DesignTokens.Proofs.Build.Values
import DesignTokens.Proofs.Files.Location

/-!
# Completed builds

A build that succeeds writes its twelve planned files with the texts worked out for them
(`wrote_of_build`). A file that is named after the product may have the path of another one, and
then the later one stays (`heldOn_of_last`). No later file has the path of a theme stylesheet:
`theme_sheets_held`.
-/

namespace DesignTokens

/-- The file holds the text worked out for it. -/
def PlannedFile.HeldOn (file : PlannedFile) (disk : Disk) : Prop :=
  ∃ text, file.text.result = .ok text ∧ disk.readOctets file.path = .ok text.toUTF8

namespace BuildConfig

/-- The folder and the name of each file of a build below the output folder, in the order in which
they are written. -/
def places (config : BuildConfig) : List (String × String) :=
  [("css", config.product ++ ".css"), ("css", "light.css"), ("css", "dark.css"),
   ("css", config.product ++ "-flat.css"), ("css", "dark-flat.css"),
   ("tailwind", config.product ++ ".js"), ("js", "index.js"), ("js", "index.d.ts"),
   ("csharp", config.classPrefix ++ "Tokens" ++ ".cs"), ("csharp", "LightThemeTokens" ++ ".cs"),
   ("csharp", "DarkThemeTokens" ++ ".cs"), ("tokens", "index.json")]

variable {config : BuildConfig} {document : Fields Json} {now : Moment}

/-- The planned files go to their places. -/
theorem paths_plan (config : BuildConfig) (document : Fields Json) (now : Moment) :
    (config.plan document now).map PlannedFile.path =
      config.places.map fun place => config.outputPath place.1 place.2 := by
  simp only [plan, places, List.map_cons, List.map_nil]

/-- Where the product has no slashes, all places are names of files in folders. -/
theorem isName_of_mem_places (hproduct : '/' ∉ config.product.toList) :
    ∀ place ∈ config.places, Path.IsName place.1 ∧ Path.IsName place.2 := by
  have hclass : '/' ∉ (config.classPrefix ++ "Tokens").toList := by
    rw [String.toList_append, List.mem_append, not_or]
    exact ⟨slash_not_mem_pascalCase hproduct, by decide⟩
  have hnamed {stem : String} (hstem : '/' ∉ stem.toList) {ending : String}
      (hending : '/' ∉ ending.toList ∧ 2 < ending.length) : Path.IsName (stem ++ ending) :=
    Path.isName_append hstem hending.1 hending.2
  simp only [places, List.forall_mem_cons, List.not_mem_nil, false_implies, implies_true, and_true]
  refine ⟨⟨by decide, hnamed hproduct (by decide)⟩, by decide, by decide,
    ⟨by decide, hnamed hproduct (by decide)⟩, by decide, ⟨by decide, hnamed hproduct (by decide)⟩,
    by decide, by decide, ⟨by decide, hnamed hclass (by decide)⟩, by decide, by decide, by decide⟩

/-- Names of files in folders give one path only when they are the same. -/
theorem outputPath_inj {place other : String × String}
    (hplace : Path.IsName place.1 ∧ Path.IsName place.2)
    (hother : Path.IsName other.1 ∧ Path.IsName other.2) :
    config.outputPath place.1 place.2 = config.outputPath other.1 other.2 ↔ place = other := by
  constructor
  · intro h
    unfold outputPath at h
    rw [Path.join_of_isName _ hplace.2, Path.join_of_isName _ hplace.1,
      Path.join_of_isName _ hother.2, Path.join_of_isName _ hother.1] at h
    have hparts := (Path.mk.inj h).2
    rw [List.append_assoc, List.append_assoc, List.append_cancel_left_eq] at hparts
    obtain ⟨hfolder, hname⟩ := List.cons.inj hparts
    exact Prod.ext hfolder (List.cons.inj hname).1
  · rintro rfl
    rfl

/-- A text has the ending that is added to it. -/
theorem append_ne_of_not_suffix {stem ending name : String}
    (h : ¬ ending.toList <:+ name.toList) : stem ++ ending ≠ name := by
  rintro rfl
  rw [String.toList_append] at h
  exact h (List.suffix_append _ _)

/-- No file that is written after the stylesheet of a theme has its place. -/
theorem theme_places_last (config : BuildConfig) :
    (∀ place ∈ config.places.drop 2, place ≠ ("css", "light.css")) ∧
      ∀ place ∈ config.places.drop 3, place ≠ ("css", "dark.css") := by
  have hlight : config.product ++ "-flat.css" ≠ "light.css" :=
    append_ne_of_not_suffix (by decide)
  have hdark : config.product ++ "-flat.css" ≠ "dark.css" := append_ne_of_not_suffix (by decide)
  constructor <;> simp [places, hlight, hdark]

end BuildConfig

/-- The planned file of the stylesheet of a tree. -/
def TreeFiles.sheet (f : TreeFiles) (config : BuildConfig) : PlannedFile :=
  ⟨config.outputPath "css" f.sheetName,
    (f.tree.stylesheet f.selector f.scope).andThen fun s => .done s.render⟩

namespace Files

variable {config : BuildConfig} {document : Fields Json} {now : Moment} {before after : Disk}

/-- Stages that succeed write the planned files that they make. -/
theorem completeFile_of_makes {stages : List Stage} {parts : List (List PlannedFile)}
    (hmakes : List.Forall₂ Stage.Makes stages parts) {batches : List Batch}
    (hbatches : stages.map Outcome.result = batches.map .ok) :
    ((batches.flatMap Batch.outputs).map Output.file).map completeFile =
      parts.flatten.map PlannedFile.made := by
  induction hmakes generalizing batches with
  | nil =>
      cases batches with
      | nil => rfl
      | cons batch batches => cases hbatches
  | cons hstage hlater ih =>
      cases batches with
      | nil => cases hbatches
      | cons batch batches =>
          obtain ⟨hbatch, hrest⟩ := List.cons.inj hbatches
          rw [List.flatMap_cons, List.flatten_cons, List.map_append, List.map_append,
            List.map_append, hstage.made batch hbatch, ih hrest]

/-- A build that has no versions to compare succeeds when its stages do, once it has loaded a
document that it accepts. -/
theorem exists_build_ends (hversions : config.checkVersions = false)
    (hload : Job.Ends (Disk.files.loadTokens config) before document before)
    (hvalid : config.validate = true → (validate document config.product).valid = true)
    (hstages : (Disk.files.buildStages config now document before).1.result.toOption.isSome =
      true) :
    ∃ result, Job.Ends (Disk.files.build config now) before result
      (Disk.files.build config now before).2 := by
  have hsame : (Disk.files.build config now before).1.result =
      (Disk.files.buildStages config now document before).1.result :=
    (build_result_of_stages hversions hload hvalid).1
  cases hresult : (Disk.files.buildStages config now document before).1.result with
  | error e =>
      rw [hresult] at hstages
      cases hstages
  | ok result => exact ⟨result, hsame.trans hresult, rfl⟩

/-- A build that succeeds writes its planned files, in order. -/
theorem wrote_of_build {result : BuildResult}
    (hbuild : Job.Ends (Disk.files.build config now) before result after)
    (hload : Job.Ends (Disk.files.loadTokens config) before document before) :
    ∃ written, result.written = written.map Prod.fst ∧
      written.map completeFile = (config.plan document now).map PlannedFile.made ∧
      Disk.Wrote before after written := by
  obtain ⟨loaded, hloaded, hcarry⟩ := build_ends hbuild
  obtain rfl : document = loaded := Except.ok.inj (hload.1.symm.trans hloaded.1)
  obtain ⟨batches, hbatches, hpaths, hwrote⟩ := wrote_of_carryOut hcarry
  obtain ⟨parts, hmakes, hplan⟩ := config.exists_parts document now
  refine ⟨_, ?_, ?_, hwrote⟩
  · rw [hpaths, List.map_map]
    rfl
  · rw [← hplan]
    exact completeFile_of_makes hmakes hbatches

/-- The paths of the files written are those planned. -/
theorem paths_of_written {written : List (Path × String)} {plan : List PlannedFile}
    (hwritten : written.map completeFile = plan.map PlannedFile.made) :
    written.map Prod.fst = plan.map PlannedFile.path := by
  have hfirst := congrArg (List.map Prod.fst) hwritten
  rw [List.map_map, List.map_map] at hfirst
  exact hfirst

/-- Planned files of a product without slashes are at one location only when they have one path. -/
theorem path_eq_of_locate {written : List (Path × String)}
    (hwritten : written.map completeFile = (config.plan document now).map PlannedFile.made)
    (hwrote : Disk.Wrote before after written) (hproduct : '/' ∉ config.product.toList)
    {path other : Path} (hpath : path ∈ (config.plan document now).map PlannedFile.path)
    (hother : other ∈ (config.plan document now).map PlannedFile.path)
    (hsame : after.locate path = after.locate other) : path = other := by
  have hlocation := hwrote.locate_eq (paths_of_written hwritten ▸ hpath)
  have hotherLocation := hsame.symm.trans hlocation
  rw [config.paths_plan] at hpath hother
  obtain ⟨place, hplace, rfl⟩ := List.mem_map.1 hpath
  obtain ⟨otherPlace, hotherPlace, rfl⟩ := List.mem_map.1 hother
  have hnames := BuildConfig.isName_of_mem_places hproduct
  obtain ⟨hfolder, hname⟩ := Disk.names_of_locate (hnames place hplace).1 (hnames place hplace).2
    (hnames otherPlace hotherPlace).1 (hnames otherPlace hotherPlace).2 hlocation hotherLocation
  rw [hfolder, hname]

/-- Once the files planned for a product without slashes are written, one whose path no later file
has holds its text. -/
theorem heldOn_of_last {written : List (Path × String)} {first later : List PlannedFile}
    {file : PlannedFile}
    (hwritten : written.map completeFile = (config.plan document now).map PlannedFile.made)
    (hwrote : Disk.Wrote before after written) (hproduct : '/' ∉ config.product.toList)
    (hplan : config.plan document now = first ++ file :: later)
    (hlast : ∀ path ∈ later.map PlannedFile.path, path ≠ file.path) : file.HeldOn after := by
  have hplanned {path : Path} (hpath : path ∈ (file :: later).map PlannedFile.path) :
      path ∈ (config.plan document now).map PlannedFile.path := by
    rw [hplan, List.map_append]
    exact List.mem_append_right _ hpath
  have hsplit := hwritten
  rw [hplan, List.map_append, List.map_cons, List.map_eq_append_iff] at hsplit
  obtain ⟨front, rest, rfl, -, hrest⟩ := hsplit
  obtain ⟨⟨path, text⟩, others, rfl, hmade, hothers⟩ := List.map_eq_cons_iff.1 hrest
  obtain ⟨rfl, htext⟩ : path = file.path ∧ .ok text = file.text.result := Prod.mk.inj hmade
  refine ⟨text, htext.symm, hwrote.last front (file.path, text) others rfl fun other hother => ?_⟩
  intro hsame
  have hpath : other.1 ∈ later.map PlannedFile.path :=
    paths_of_written hothers ▸ List.mem_map_of_mem hother
  exact hlast other.1 hpath (path_eq_of_locate hwritten hwrote hproduct
    (hplanned (List.mem_cons_of_mem _ hpath)) (hplanned List.mem_cons_self) hsame)

/-- After a build of a product without slashes, the stylesheets of both themes hold what is rendered
for their trees. -/
theorem theme_sheets_held {result : BuildResult}
    (hbuild : Job.Ends (Disk.files.build config now) before result after)
    (hload : Job.Ends (Disk.files.loadTokens config) before document before)
    (hproduct : '/' ∉ config.product.toList) :
    let tokens := ProductTokens.extract document config.product config.scopeId
    ∀ f ∈ [BuildConfig.lightFiles tokens, BuildConfig.darkFiles tokens],
      ∃ s, (f.tree.stylesheet f.selector f.scope).result = .ok s ∧
        after.readOctets (config.outputPath "css" f.sheetName) = .ok s.render.toUTF8 := by
  intro tokens
  obtain ⟨written, -, hwritten, hwrote⟩ := wrote_of_build hbuild hload
  have hnames := BuildConfig.isName_of_mem_places hproduct
  obtain ⟨hlight, hdark⟩ := config.theme_places_last
  have hcss : Path.IsName "css" := by decide
  have hheld {f : TreeFiles} {n : Nat} (hname : Path.IsName f.sheetName)
      (hplan : config.plan document now = (config.plan document now).take n ++
        f.sheet config :: (config.plan document now).drop (n + 1))
      (hlast : ∀ place ∈ config.places.drop (n + 1), place ≠ ("css", f.sheetName)) :
      ∃ s, (f.tree.stylesheet f.selector f.scope).result = .ok s ∧
        after.readOctets (config.outputPath "css" f.sheetName) = .ok s.render.toUTF8 := by
    obtain ⟨text, htext, hfile⟩ : (f.sheet config).HeldOn after := by
      refine heldOn_of_last hwritten hwrote hproduct hplan fun path hpath heq => ?_
      rw [List.map_drop, config.paths_plan, ← List.map_drop] at hpath
      obtain ⟨place, hplace, rfl⟩ := List.mem_map.1 hpath
      exact hlast place hplace ((BuildConfig.outputPath_inj
        (hnames place (List.mem_of_mem_drop hplace)) ⟨hcss, hname⟩).1 heq)
    obtain ⟨s, hs, rfl⟩ := Outcome.andThen_done_eq_ok_iff.1 htext
    exact ⟨s, hs, hfile⟩
  intro f hf
  have hlightName : Path.IsName "light.css" := by decide
  have hdarkName : Path.IsName "dark.css" := by decide
  rcases List.mem_cons.1 hf with rfl | hf
  · exact hheld (n := 1) hlightName rfl hlight
  · rw [List.mem_singleton.1 hf]
    exact hheld (n := 2) hdarkName rfl hdark

end Files

end DesignTokens
