import DesignTokens.Proofs.Build.Completion

/-!
# The paths of a build

Four of the twelve files of a build are named after its product, and the others have names of their
own. The paths differ exactly when no file that is named after the product has the path of one of
the others (`nodup_paths_iff`). For a product without slashes this leaves out a few names
(`nodup_paths_iff_of_name`), and for any other such product every file holds the text worked out
for it after a build that succeeds: `outputs_distinct_iff`.
-/

namespace DesignTokens

namespace BuildConfig

variable {config : BuildConfig}

/-- The places of the files that are named after the product. -/
def ownPlaces (config : BuildConfig) : List (String × String) :=
  [("css", config.product ++ ".css"), ("css", config.product ++ "-flat.css"),
   ("tailwind", config.product ++ ".js"), ("csharp", config.classPrefix ++ "Tokens.cs")]

/-- The places of the other files. -/
def fixedPlaces : List (String × String) :=
  [("css", "light.css"), ("css", "dark.css"), ("css", "dark-flat.css"), ("js", "index.js"),
   ("js", "index.d.ts"), ("csharp", "LightThemeTokens.cs"), ("csharp", "DarkThemeTokens.cs"),
   ("tokens", "index.json")]

/-- Each file of a build is of one of the two kinds. -/
theorem places_perm (config : BuildConfig) :
    List.Perm config.places (config.ownPlaces ++ fixedPlaces) := by
  have hclass : config.classPrefix ++ "Tokens" ++ ".cs" = config.classPrefix ++ "Tokens.cs" :=
    String.append_assoc
  have hmiddle (place : String × String) (first later : List (String × String)) :
      List.Perm (first ++ place :: later) (place :: (first ++ later)) := List.perm_middle
  rw [places, ownPlaces, fixedPlaces, hclass]
  refine .cons _ ((hmiddle _ [_, _] _).trans (.cons _ ?_))
  refine (hmiddle _ [_, _, _] _).trans (.cons _ ?_)
  exact hmiddle _ [_, _, _, _, _] _

/-- Texts differ when neither of their endings ends in the other. -/
theorem append_ne_append {stem other ending last : String}
    (h : ¬ ending.toList <:+ last.toList ∧ ¬ last.toList <:+ ending.toList) :
    stem ++ ending ≠ other ++ last := by
  refine append_ne_of_not_suffix fun hsuffix => ?_
  rw [String.toList_append] at hsuffix
  exact (List.suffix_or_suffix_of_suffix hsuffix (List.suffix_append _ _)).elim h.1 h.2

/-- The files named after the product have paths that end differently. -/
theorem nodup_ownPaths (config : BuildConfig) :
    (config.ownPlaces.map fun place => config.outputPath place.1 place.2).Nodup := by
  obtain ⟨front, hfront⟩ := Path.exists_getLast?_join config.product
  obtain ⟨start, hstart⟩ := Path.exists_getLast?_join config.classPrefix
  have hlast : (config.ownPlaces.map fun place => config.outputPath place.1 place.2).map
      (fun path => path.parts.getLast?) =
        [front ++ ".css", front ++ "-flat.css", front ++ ".js", start ++ "Tokens.cs"].map some := by
    simp only [ownPlaces, outputPath, List.map_cons, List.map_nil]
    rw [hfront _ (by decide), hfront _ (by decide), hfront _ (by decide), hstart _ (by decide)]
  -- Both stylesheets end in `.css`, but what comes before their endings is the same text.
  have hflat : front ++ ".css" ≠ front ++ "-flat.css" := by
    rw [Ne, String.append_right_inj]
    decide
  have hnames :
      [front ++ ".css", front ++ "-flat.css", front ++ ".js", start ++ "Tokens.cs"].Nodup := by
    simp only [List.nodup_cons, List.mem_cons, List.not_mem_nil, or_false, not_or,
      not_false_eq_true, List.nodup_nil, and_true]
    exact ⟨⟨hflat, append_ne_append (by decide), append_ne_append (by decide)⟩,
      ⟨append_ne_append (by decide), append_ne_append (by decide)⟩, append_ne_append (by decide)⟩
  refine List.Nodup.of_map (fun path => path.parts.getLast?) ?_
  rw [hlast]
  exact hnames.map fun _ _ => Option.some.inj

/-- The paths of a build differ exactly when no file that is named after the product has the path
of a file with a name of its own. -/
theorem nodup_paths_iff (config : BuildConfig) :
    (config.places.map fun place => config.outputPath place.1 place.2).Nodup ↔
      ∀ own ∈ config.ownPlaces, ∀ place ∈ fixedPlaces,
        config.outputPath own.1 own.2 ≠ config.outputPath place.1 place.2 := by
  have hnames : ∀ place ∈ fixedPlaces, Path.IsName place.1 ∧ Path.IsName place.2 := by decide
  have hfixed : (fixedPlaces.map fun place => config.outputPath place.1 place.2).Nodup := by
    have hplaces : fixedPlaces.Nodup := by decide
    exact hplaces.map_on fun place hplace other hother =>
      (outputPath_inj (hnames place hplace) (hnames other hother)).1
  rw [(config.places_perm.map _).nodup_iff, List.map_append, List.nodup_append,
    and_iff_right config.nodup_ownPaths, and_iff_right hfixed]
  simp only [List.forall_mem_map]

/-- A file that is named after the product has a fixed place for a few names only. -/
theorem ownPlaces_not_fixed_iff (config : BuildConfig) :
    (∀ own ∈ config.ownPlaces, own ∉ fixedPlaces) ↔
      config.product ∉ ["light", "dark", "dark-flat"] ∧
        config.classPrefix ∉ ["LightTheme", "DarkTheme"] := by
  have hstem {text stem ending name : String} (hname : stem ++ ending = name) :
      text ++ ending = name ↔ text = stem := by
    rw [← hname, String.append_left_inj]
  have hsheet : ("css", config.product ++ ".css") ∈ fixedPlaces ↔
      config.product ∈ ["light", "dark", "dark-flat"] := by
    have hlight : config.product ++ ".css" = "light.css" ↔ config.product = "light" := hstem rfl
    have hdark : config.product ++ ".css" = "dark.css" ↔ config.product = "dark" := hstem rfl
    have hflat : config.product ++ ".css" = "dark-flat.css" ↔ config.product = "dark-flat" :=
      hstem rfl
    simp [fixedPlaces, hlight, hdark, hflat]
  have hflat : ("css", config.product ++ "-flat.css") ∈ fixedPlaces ↔ config.product = "dark" := by
    have hlight : config.product ++ "-flat.css" ≠ "light.css" :=
      append_ne_of_not_suffix (by decide)
    have hdark : config.product ++ "-flat.css" ≠ "dark.css" := append_ne_of_not_suffix (by decide)
    have hstem : config.product ++ "-flat.css" = "dark-flat.css" ↔ config.product = "dark" :=
      hstem rfl
    simp [fixedPlaces, hlight, hdark, hstem]
  have hscript : ("tailwind", config.product ++ ".js") ∉ fixedPlaces := by
    simp [fixedPlaces]
  have hunit : ("csharp", config.classPrefix ++ "Tokens.cs") ∈ fixedPlaces ↔
      config.classPrefix ∈ ["LightTheme", "DarkTheme"] := by
    have hlight : config.classPrefix ++ "Tokens.cs" = "LightThemeTokens.cs" ↔
        config.classPrefix = "LightTheme" := hstem rfl
    have hdark : config.classPrefix ++ "Tokens.cs" = "DarkThemeTokens.cs" ↔
        config.classPrefix = "DarkTheme" := hstem rfl
    simp [fixedPlaces, hlight, hdark]
  simp only [ownPlaces, List.forall_mem_cons, hsheet, hflat, hunit]
  constructor
  · rintro ⟨hproduct, -, -, hclass, -⟩
    exact ⟨hproduct, hclass⟩
  · rintro ⟨hproduct, hclass⟩
    refine ⟨hproduct, ?_, hscript, hclass, fun _ hnone => absurd hnone List.not_mem_nil⟩
    intro hdark
    rw [hdark] at hproduct
    exact hproduct (by decide)

/-- Where the product has no slashes, the paths differ unless it is one of a few names. -/
theorem nodup_paths_iff_of_name (hproduct : '/' ∉ config.product.toList) :
    (config.places.map fun place => config.outputPath place.1 place.2).Nodup ↔
      config.product ∉ ["light", "dark", "dark-flat"] ∧
        config.classPrefix ∉ ["LightTheme", "DarkTheme"] := by
  have hnames {place : String × String} (hplace : place ∈ config.ownPlaces ++ fixedPlaces) :
      Path.IsName place.1 ∧ Path.IsName place.2 :=
    isName_of_mem_places hproduct place (config.places_perm.mem_iff.2 hplace)
  rw [nodup_paths_iff, ← ownPlaces_not_fixed_iff]
  refine forall₂_congr fun own hown => ?_
  constructor
  · intro hpaths hfixed
    exact hpaths own hfixed rfl
  · intro hfixed place hplace hpath
    obtain rfl : own = place := (outputPath_inj (hnames (List.mem_append_left _ hown))
      (hnames (List.mem_append_right _ hplace))).1 hpath
    exact hfixed hplace

end BuildConfig

namespace Files

variable {config : BuildConfig} {document : Fields Json} {now : Moment} {before after : Disk}

/-- Once the planned files are written, all of them hold their texts exactly when those at one
location have one text. -/
theorem held_plan_iff {written : List (Path × String)} {plan : List PlannedFile}
    (hwritten : written.map completeFile = plan.map PlannedFile.made)
    (hwrote : Disk.Wrote before after written) :
    (∀ file ∈ plan, file.HeldOn after) ↔
      plan.Pairwise fun file later =>
        after.locate file.path = after.locate later.path →
          file.text.result = later.text.result := by
  have hheld : (∀ file ∈ plan, file.HeldOn after) ↔
      ∀ file ∈ written, after.readOctets file.1 = .ok file.2.toUTF8 := calc
    _ ↔ ∀ made ∈ plan.map PlannedFile.made, ∃ text, made.2 = .ok text ∧
          after.readOctets made.1 = .ok text.toUTF8 := List.forall_mem_map.symm
    _ ↔ ∀ file ∈ written, ∃ text, (completeFile file).2 = .ok text ∧
          after.readOctets file.1 = .ok text.toUTF8 := by
        rw [← hwritten, List.forall_mem_map]
        rfl
    _ ↔ _ := by simp [completeFile]
  have hsame : (plan.Pairwise fun file later => after.locate file.path = after.locate later.path →
        file.text.result = later.text.result) ↔
      written.Pairwise fun file later =>
        after.locate file.1 = after.locate later.1 → file.2 = later.2 := calc
    _ ↔ (plan.map PlannedFile.made).Pairwise fun made later =>
          after.locate made.1 = after.locate later.1 → made.2 = later.2 := List.pairwise_map.symm
    _ ↔ _ := by
        rw [← hwritten, List.pairwise_map]
        simp [completeFile]
  rw [hheld, hwrote.held_iff, hsame]

/-- A build that succeeds writes the paths of its plan. They differ exactly when no file that is
named after the product has the path of a file with a name of its own, and all files hold the texts
worked out for them exactly when those at one location have one text. For a product without slashes
the paths differ unless the product is one of a few names, and then all files hold their texts. -/
theorem outputs_distinct_iff {result : BuildResult}
    (hbuild : Job.Ends (Disk.files.build config now) before result after)
    (hload : Job.Ends (Disk.files.loadTokens config) before document before) :
    let plan := config.plan document now
    result.written = plan.map PlannedFile.path ∧
      (result.written.Nodup ↔ ∀ own ∈ config.ownPlaces, ∀ place ∈ BuildConfig.fixedPlaces,
        config.outputPath own.1 own.2 ≠ config.outputPath place.1 place.2) ∧
      ((∀ file ∈ plan, file.HeldOn after) ↔ plan.Pairwise fun file later =>
        after.locate file.path = after.locate later.path →
          file.text.result = later.text.result) ∧
      ('/' ∉ config.product.toList →
        (result.written.Nodup ↔ config.product ∉ ["light", "dark", "dark-flat"] ∧
          config.classPrefix ∉ ["LightTheme", "DarkTheme"]) ∧
        (result.written.Nodup → ∀ file ∈ plan, file.HeldOn after)) := by
  intro plan
  obtain ⟨written, hpaths, hwritten, hwrote⟩ := wrote_of_build hbuild hload
  rw [paths_of_written hwritten] at hpaths
  have hplaces := hpaths.trans (config.paths_plan document now)
  have hheld := held_plan_iff hwritten hwrote
  refine ⟨hpaths, ?_, hheld, fun hproduct => ⟨?_, fun hdistinct => hheld.2 ?_⟩⟩
  · rw [hplaces]
    exact config.nodup_paths_iff
  · rw [hplaces]
    exact BuildConfig.nodup_paths_iff_of_name hproduct
  · -- Files at one location would have one path, and no path is written twice.
    rw [hpaths] at hdistinct
    refine (List.pairwise_map.1 hdistinct).imp_of_mem fun hfile hlater hne hsame => absurd ?_ hne
    exact path_eq_of_locate hwritten hwrote hproduct (List.mem_map_of_mem hfile)
      (List.mem_map_of_mem hlater) hsame

end Files

/-! ## Products with different names -/

namespace NamedProduct

/-- A document with one color of a product of the given name. -/
def document (product : String) : Fields Json :=
  [(product, .obj [("color", .obj
    [("a", .obj [("value", .str "#111111"), ("type", .str "color")])])])]

/-- The text of that document. -/
def text (product : String) : String :=
  "\x7b\"" ++ product ++ "\":\x7b\"color\":\x7b\"a\":\x7b" ++
    "\"value\":\"#111111\",\"type\":\"color\"\x7d\x7d\x7d\x7d"

/-- A disk with that text. -/
def disk (product : String) : Disk :=
  { entries := [(["t"], .file (text product).toUTF8)] }

/-- A build of the product. -/
def config (product : String) : BuildConfig :=
  { tokensPath := ⟨"", ["t"]⟩, product, outputFolder := ⟨"", ["o"]⟩, checkVersions := false }

/-- The moment of the build. -/
def now : Moment :=
  ⟨⟨2024, 1, 2⟩, 3, 4, 5, 678901, some 0⟩

/-- The texts are read as the documents. -/
theorem reads :
    ('\r' ∉ (text "p").toList ∧ Json.readAll (text "p").toList = .ok (.obj (document "p"))) ∧
      '\r' ∉ (text "light").toList ∧
        Json.readAll (text "light").toList = .ok (.obj (document "light")) := by
  decide +kernel

theorem loads_plain : Job.Ends (Disk.files.loadTokens (config "p")) (disk "p") (document "p")
    (disk "p") :=
  Files.loadTokens_ends rfl (Disk.readObject_of_text rfl reads.1.1 reads.1.2)

theorem loads_light : Job.Ends (Disk.files.loadTokens (config "light")) (disk "light")
    (document "light") (disk "light") :=
  Files.loadTokens_ends rfl (Disk.readObject_of_text rfl reads.2.1 reads.2.2)

/-- The stages of both builds succeed. -/
theorem stages_succeed :
    (Disk.files.buildStages (config "p") now (document "p")
        (disk "p")).1.result.toOption.isSome = true ∧
      (Disk.files.buildStages (config "light") now (document "light")
        (disk "light")).1.result.toOption.isSome = true := by
  decide +kernel

theorem builds_plain : ∃ result, Job.Ends (Disk.files.build (config "p") now) (disk "p") result
    (Disk.files.build (config "p") now (disk "p")).2 :=
  Files.exists_build_ends rfl loads_plain nofun stages_succeed.1

theorem builds_light : ∃ result, Job.Ends (Disk.files.build (config "light") now) (disk "light")
    result (Disk.files.build (config "light") now (disk "light")).2 :=
  Files.exists_build_ends rfl loads_light nofun stages_succeed.2

end NamedProduct

open NamedProduct in
/-- The twelve paths of a build of the product `p` differ, and each file holds its text. -/
theorem plain_product_paths_distinct :
    ∃ result, Job.Ends (Disk.files.build (config "p") now) (disk "p") result
        (Disk.files.build (config "p") now (disk "p")).2 ∧
      Job.Ends (Disk.files.loadTokens (config "p")) (disk "p") (document "p") (disk "p") ∧
      result.written.Nodup ∧
      ∀ file ∈ (config "p").plan (document "p") now,
        file.HeldOn (Disk.files.build (config "p") now (disk "p")).2 := by
  obtain ⟨result, hbuild⟩ := builds_plain
  obtain ⟨-, -, -, hplain⟩ := Files.outputs_distinct_iff hbuild loads_plain
  obtain ⟨hdistinct, hheld⟩ := hplain (by decide)
  have hnodup := hdistinct.2 (by decide +kernel)
  exact ⟨result, hbuild, loads_plain, hnodup, hheld hnodup⟩

open NamedProduct in
/-- A build of the product `light` succeeds though it writes one path twice, and its source
stylesheet is lost to that of the light theme. -/
theorem light_product_overwritten :
    ∃ result, Job.Ends (Disk.files.build (config "light") now) (disk "light") result
        (Disk.files.build (config "light") now (disk "light")).2 ∧
      Job.Ends (Disk.files.loadTokens (config "light")) (disk "light") (document "light")
        (disk "light") ∧
      ¬ result.written.Nodup ∧
      ¬ ∀ file ∈ (config "light").plan (document "light") now,
        file.HeldOn (Disk.files.build (config "light") now (disk "light")).2 := by
  obtain ⟨result, hbuild⟩ := builds_light
  obtain ⟨written, hpaths, hwritten, hwrote⟩ := Files.wrote_of_build hbuild loads_light
  refine ⟨result, hbuild, loads_light, ?_, fun hheld => ?_⟩
  · rw [hpaths, Files.paths_of_written hwritten, BuildConfig.paths_plan,
      BuildConfig.nodup_paths_iff_of_name (by decide)]
    decide
  · have hpairs := List.pairwise_iff_getElem.1 ((Files.held_plan_iff hwritten hwrote).1 hheld)
    have hpath : ((config "light").plan (document "light") now)[0].path =
        ((config "light").plan (document "light") now)[1].path := by
      decide +kernel
    have htext : ((config "light").plan (document "light") now)[0].text.result ≠
        ((config "light").plan (document "light") now)[1].text.result := by
      decide +kernel
    exact htext (hpairs 0 1 (by decide) (by decide) (by decide) (congrArg _ hpath))

end DesignTokens
