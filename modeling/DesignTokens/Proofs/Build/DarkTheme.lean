import DesignTokens.Proofs.Build.Completion
import DesignTokens.Proofs.Product

/-!
# The reach of the dark theme

Documents of a layered product that are the same except for its dark theme have the same source,
light theme and scope (`extract_of_sameExceptDark`). The dark theme goes into four of the twelve
files of a build, and the others hold the same content whatever it is:
`light_outputs_without_dark`.
-/

namespace DesignTokens

/-! ## Values that are the same except at one place -/

/-- The values are the same except for what stands at a key path. -/
inductive Json.SameExceptAt : List String → Option Json → Option Json → Prop where
  | here (x y : Option Json) : SameExceptAt [] x y
  | same (path : List String) (x : Option Json) : SameExceptAt path x x
  | inside {key : String} {path : List String} {fields others : Fields Json} :
    fields.without [key] = others.without [key] →
      SameExceptAt path (fields.get? key) (others.get? key) →
        SameExceptAt (key :: path) (some (.obj fields)) (some (.obj others))

namespace Json.SameExceptAt

variable {path keys : List String} {x y : Option Json}

/-- Above the place, values are the same except for what stands at the rest of the key path. -/
theorem at_above (keys : List String) (h : SameExceptAt (keys ++ path) x y) :
    SameExceptAt path (x.bind fun x => x.at? keys) (y.bind fun y => y.at? keys) := by
  induction keys generalizing x y with
  | nil =>
      simp only [at?_nil, Option.bind_fun_some]
      exact h
  | cons key keys ih =>
      cases h with
      | same => exact .same _ _
      | inside _ hinside => exact ih hinside

/-- Beside the place the same values stand. -/
theorem at?_eq (h : SameExceptAt path x y) (hbelow : ¬ path <+: keys) (habove : ¬ keys <+: path) :
    (x.bind fun x => x.at? keys) = y.bind fun y => y.at? keys := by
  induction h generalizing keys with
  | here => exact absurd List.nil_prefix hbelow
  | same => rfl
  | @inside key path fields others hwithout _ ih =>
      cases keys with
      | nil => exact absurd List.nil_prefix habove
      | cons name keys =>
          simp only [Option.bind_some, at?_obj_cons]
          by_cases hname : name = key
          · subst hname
            rw [List.prefix_cons_inj] at hbelow habove
            exact ih hbelow habove
          · rw [Fields.get?_eq_of_without hwithout hname]

end Json.SameExceptAt

/-! ## The trees of a product -/

namespace ProductTokens

variable {document other tokens others : Fields Json} {product : String}

/-- The documents are the same except for the dark theme of a layered product. -/
def SameExceptDark (product : String) (document other : Fields Json) : Prop :=
  Json.SameExceptAt [coreKey, product, themeKey, "dark"] (some (.obj document)) (some (.obj other))

/-- When one of the documents is in the layered layout, so is the other, and the tokens of the
product are the same except for its dark theme. -/
theorem SameExceptDark.exists_layered (h : SameExceptDark product document other)
    (hlayered : layered? document product = some tokens) :
    ∃ others, layered? other product = some others ∧
      Json.SameExceptAt [themeKey, "dark"] (some (.obj tokens)) (some (.obj others)) := by
  have htokens : Json.SameExceptAt [themeKey, "dark"] ((Json.obj document).at? [coreKey, product])
      ((Json.obj other).at? [coreKey, product]) :=
    Json.SameExceptAt.at_above [coreKey, product] h
  rw [at?_of_layered hlayered] at htokens
  have hother (others : Fields Json)
      (hat : (Json.obj other).at? [coreKey, product] = some (.obj others)) :
      layered? other product = some others := by
    rw [layered?_eq, hat]
    rfl
  cases hat : (Json.obj other).at? [coreKey, product] with
  | none =>
      rw [hat] at htokens
      cases htokens
  | some y =>
      rw [hat] at htokens
      cases htokens with
      | same => exact ⟨tokens, hother tokens hat, .same _ _⟩
      | inside hwithout hinside => exact ⟨_, hother _ hat, .inside hwithout hinside⟩

/-- The source fields of a product do not depend on its dark theme, whether it has a source of its
own or not. -/
theorem sourceFields_of_sameExcept
    (h : Json.SameExceptAt [themeKey, "dark"] (some (.obj tokens)) (some (.obj others))) :
    (sourceFields (.obj tokens)).without [themeKey] =
      (sourceFields (.obj others)).without [themeKey] := by
  cases h with
  | same => rfl
  | inside hwithout _ =>
      have hsource : tokens.get? sourceKey = others.get? sourceKey :=
        Fields.get?_eq_of_without hwithout (by decide)
      have hfields (fields : Fields Json) : objectFields (.obj fields) = fields := rfl
      simp only [sourceFields, hfields, hsource]
      cases others.get? sourceKey with
      | none => exact hwithout
      | some source => rfl

/-- The source, the light theme and the scope of a layered product do not depend on its dark
theme. -/
theorem extract_of_sameExceptDark (h : SameExceptDark product document other)
    (hlayered : layered? document product = some tokens) (scopeId : Option String) :
    (extract document product scopeId).source = (extract other product scopeId).source ∧
      (extract document product scopeId).light = (extract other product scopeId).light ∧
      (extract document product scopeId).scope = (extract other product scopeId).scope := by
  obtain ⟨others, hother, hsame⟩ := h.exists_layered hlayered
  have hsource := sourceFields_of_sameExcept hsame
  have hlight : (fieldOrEmpty tokens themeKey).field? "light" =
      (fieldOrEmpty others themeKey).field? "light" := by
    rw [field?_fieldOrEmpty, field?_fieldOrEmpty]
    have hbelow : ¬ [themeKey, "dark"] <+: [themeKey, "light"] := by decide
    exact hsame.at?_eq hbelow (by decide)
  simp only [extract, placement_of_layered hlayered, placement_of_layered hother, hsource,
    themeTree, hlight, and_self]

end ProductTokens

/-! ## The files of a build -/

/-- The files have one path, and the same text unless the path is one of those given. -/
def PlannedFile.SameExceptAt (paths : List Path) (file other : PlannedFile) : Prop :=
  file.path = other.path ∧ (file.path ∉ paths → file.text = other.text)

namespace BuildConfig

/-- The places of the files that the dark theme goes into. -/
def darkPlaces : List (String × String) :=
  [("css", "dark.css"), ("css", "dark-flat.css"), ("csharp", "DarkThemeTokens.cs"),
   ("tokens", "index.json")]

/-- The paths of these files. -/
def darkPaths (config : BuildConfig) : List Path :=
  darkPlaces.map fun place => config.outputPath place.1 place.2

variable {config : BuildConfig} {document other tokens : Fields Json}

/-- The files that the dark theme goes into are planned. -/
theorem darkPaths_planned (config : BuildConfig) (document : Fields Json) (now : Moment)
    {path : Path} (hpath : path ∈ config.darkPaths) :
    path ∈ (config.plan document now).map PlannedFile.path := by
  have hplaces : darkPlaces ⊆ config.places := by
    simp [darkPlaces, places]
  rw [paths_plan]
  obtain ⟨place, hplace, rfl⟩ := List.mem_map.1 hpath
  exact List.mem_map_of_mem (hplaces hplace)

/-- The plans of builds from documents that are the same except for the dark theme have the same
files, and the same texts for all but those that the dark theme goes into. -/
theorem plan_of_sameExceptDark
    (h : ProductTokens.SameExceptDark config.product document other)
    (hlayered : ProductTokens.layered? document config.product = some tokens) (now : Moment) :
    List.Forall₂ (PlannedFile.SameExceptAt config.darkPaths) (config.plan document now)
      (config.plan other now) := by
  obtain ⟨hsource, hlight, hscope⟩ :=
    ProductTokens.extract_of_sameExceptDark h hlayered config.scopeId
  have hsame (path : Path) (text : Outcome String) :
      PlannedFile.SameExceptAt config.darkPaths ⟨path, text⟩ ⟨path, text⟩ := ⟨rfl, fun _ => rfl⟩
  have hdark (place : String × String) (hplace : place ∈ darkPlaces)
      (text changed : Outcome String) :
      PlannedFile.SameExceptAt config.darkPaths ⟨config.outputPath place.1 place.2, text⟩
        ⟨config.outputPath place.1 place.2, changed⟩ :=
    ⟨rfl, fun hpath => absurd (List.mem_map_of_mem hplace) hpath⟩
  simp only [plan, hsource, hlight, hscope, List.forall₂_cons, List.Forall₂.nil, and_true]
  exact ⟨hsame _ _, hsame _ _, hdark ("css", "dark.css") (by decide) _ _, hsame _ _,
    hdark ("css", "dark-flat.css") (by decide) _ _, hsame _ _, hsame _ _, hsame _ _, hsame _ _,
    hsame _ _, hdark ("csharp", "DarkThemeTokens.cs") (by decide) _ _,
    hdark ("tokens", "index.json") (by decide) _ _⟩

end BuildConfig

namespace Files

variable {config : BuildConfig} {document other tokens : Fields Json} {now : Moment}
  {before before' after after' : Disk}

/-- The files that are written in two builds from such documents have the same paths, and the same
texts unless the dark theme goes into them. -/
theorem sameTextAt_of_sameExceptDark {written written' : List (Path × String)} {path : Path}
    (hplans : List.Forall₂ (PlannedFile.SameExceptAt config.darkPaths) (config.plan document now)
      (config.plan other now))
    (hwritten : written.map completeFile = (config.plan document now).map PlannedFile.made)
    (hwritten' : written'.map completeFile = (config.plan other now).map PlannedFile.made)
    (hpath : ∀ dark ∈ config.darkPaths, after.locate path ≠ after.locate dark) :
    List.Forall₂ (after.SameTextAt path) written written' := by
  have hmade : List.Forall₂ (fun made made' : Path × Except Error String =>
      made.1 = made'.1 ∧ (made.1 ∉ config.darkPaths → made.2 = made'.2))
      (written.map completeFile) (written'.map completeFile) := by
    rw [hwritten, hwritten', List.forall₂_map_left_iff, List.forall₂_map_right_iff]
    exact hplans.imp fun _ _ hsame => ⟨hsame.1, fun hdark => congrArg Outcome.result (hsame.2 hdark)⟩
  rw [List.forall₂_map_left_iff, List.forall₂_map_right_iff] at hmade
  refine hmade.imp fun file file' hsame => ⟨hsame.1, fun hlocate => ?_⟩
  exact Except.ok.inj (hsame.2 fun hdark => hpath _ hdark hlocate.symm)

/-- The light outputs of a build do not depend on the dark theme. When builds of a configuration
succeed from two documents in the layered layout that are the same except for the dark theme of the
product, they write the same paths, and each file that is none of the four that the dark theme goes
into holds the same content after both. For a product without slashes a file is none of these when
its path is none of theirs. -/
theorem light_outputs_without_dark {result result' : BuildResult}
    (hbuild : Job.Ends (Disk.files.build config now) before result after)
    (hbuild' : Job.Ends (Disk.files.build config now) before' result' after')
    (hload : Job.Ends (Disk.files.loadTokens config) before document before)
    (hload' : Job.Ends (Disk.files.loadTokens config) before' other before')
    (hhere : before.here = before'.here)
    (hlayered : ProductTokens.layered? document config.product = some tokens)
    (hsame : ProductTokens.SameExceptDark config.product document other) :
    result.written = result'.written ∧
      (∀ path ∈ result.written,
        (∀ dark ∈ config.darkPaths, after.locate path ≠ after.locate dark) →
          ∃ octets, after.readOctets path = .ok octets ∧ after'.readOctets path = .ok octets) ∧
      ('/' ∉ config.product.toList → ∀ path ∈ result.written, path ∉ config.darkPaths →
        ∃ octets, after.readOctets path = .ok octets ∧ after'.readOctets path = .ok octets) := by
  obtain ⟨written, hpaths, hwritten, hwrote⟩ := wrote_of_build hbuild hload
  obtain ⟨written', hpaths', hwritten', hwrote'⟩ := wrote_of_build hbuild' hload'
  have hplans := BuildConfig.plan_of_sameExceptDark hsame hlayered now
  have hheld : ∀ path ∈ result.written,
      (∀ dark ∈ config.darkPaths, after.locate path ≠ after.locate dark) →
        ∃ octets, after.readOctets path = .ok octets ∧ after'.readOctets path = .ok octets := by
    intro path hpath hdark
    have hfiles := sameTextAt_of_sameExceptDark hplans hwritten hwritten' hdark
    exact hwrote.readOctets_same hwrote' hhere hfiles (hpaths ▸ hpath)
  rw [paths_of_written hwritten] at hpaths
  rw [paths_of_written hwritten'] at hpaths'
  refine ⟨?_, hheld, fun hproduct path hpath hdark => hheld path hpath fun dark hmem hsame => ?_⟩
  · rw [hpaths, hpaths', config.paths_plan, config.paths_plan]
  · have hplanned := config.darkPaths_planned document now hmem
    rw [path_eq_of_locate hwritten hwrote hproduct (hpaths ▸ hpath) hplanned hsame] at hdark
    exact hdark hmem

end Files

/-! ## Two dark themes -/

namespace TwoDarkThemes

/-- A document of a layered product without a source of its own, with a light color that refers to
it, and with a dark theme. -/
def document (dark : Json) : Fields Json :=
  [("core", .obj [("p", .obj
    [("color", .obj [("a", .obj [("value", .str "#ffffff"), ("type", .str "color")])]),
     ("theme", .obj
      [("light", .obj [("color", .obj
        [("c", .obj [("value", .str "\x7bcore.p.source.color.a\x7d"), ("type", .str "color")])])]),
       ("dark", dark)])])])]

/-- The text of that document, given the text of the dark theme. -/
def text (dark : String) : String :=
  "\x7b\"core\":\x7b\"p\":\x7b" ++
    "\"color\":\x7b\"a\":\x7b" ++
    "\"value\":\"#ffffff\",\"type\":\"color\"\x7d\x7d," ++
    "\"theme\":\x7b\"light\":\x7b\"color\":\x7b\"c\":\x7b" ++
    "\"value\":\"\x7bcore.p.source.color.a\x7d\",\"type\":\"color\"\x7d\x7d\x7d," ++
    "\"dark\":" ++ dark ++ "\x7d\x7d\x7d\x7d"

/-- A disk with that text. -/
def disk (dark : String) : Disk :=
  { entries := [(["t"], .file (text dark).toUTF8)] }

/-- A build of the document. -/
def config : BuildConfig :=
  { tokensPath := ⟨"", ["t"]⟩, product := "p", outputFolder := ⟨"", ["o"]⟩, checkVersions := false }

/-- The moment of the build. -/
def now : Moment :=
  ⟨⟨2024, 1, 2⟩, 3, 4, 5, 678901, some 0⟩

/-- A dark theme of one color. -/
def black : Json :=
  .obj [("color", .obj [("c", .obj [("value", .str "#000000"), ("type", .str "color")])])]

/-- Its text. -/
def blackText : String :=
  "\x7b\"color\":\x7b\"c\":\x7b\"value\":\"#000000\",\"type\":\"color\"\x7d\x7d\x7d"

/-- The texts are read as the documents. -/
theorem reads :
    ('\r' ∉ (text blackText).toList ∧
        Json.readAll (text blackText).toList = .ok (.obj (document black))) ∧
      '\r' ∉ (text "null").toList ∧
        Json.readAll (text "null").toList = .ok (.obj (document .null)) := by
  -- The characters are taken piece by piece, since those of a long text are slow to evaluate.
  unfold text
  simp only [String.toList_append]
  decide +kernel

theorem loads_black : Job.Ends (Disk.files.loadTokens config) (disk blackText) (document black)
    (disk blackText) :=
  Files.loadTokens_ends rfl (Disk.readObject_of_text rfl reads.1.1 reads.1.2)

theorem loads_null : Job.Ends (Disk.files.loadTokens config) (disk "null") (document .null)
    (disk "null") :=
  Files.loadTokens_ends rfl (Disk.readObject_of_text rfl reads.2.1 reads.2.2)

/-- The stages of both builds succeed. -/
theorem stages_succeed :
    (Disk.files.buildStages config now (document black) (disk blackText)).1.result.toOption.isSome =
        true ∧
      (Disk.files.buildStages config now (document .null) (disk "null")).1.result.toOption.isSome =
        true := by
  decide +kernel

theorem builds_black : ∃ result, Job.Ends (Disk.files.build config now) (disk blackText) result
    (Disk.files.build config now (disk blackText)).2 :=
  Files.exists_build_ends rfl loads_black nofun stages_succeed.1

theorem builds_null : ∃ result, Job.Ends (Disk.files.build config now) (disk "null") result
    (Disk.files.build config now (disk "null")).2 :=
  Files.exists_build_ends rfl loads_null nofun stages_succeed.2

theorem sameExceptDark (dark other : Json) :
    ProductTokens.SameExceptDark config.product (document dark) (document other) :=
  .inside rfl (.inside rfl (.inside rfl (.inside rfl (.here _ _))))

end TwoDarkThemes

open TwoDarkThemes in
/-- With a color in the dark theme and with null in its place, the light outputs are the same. -/
theorem black_dark_theme_ignored :
    ∃ result result',
      Job.Ends (Disk.files.build config now) (disk blackText) result
        (Disk.files.build config now (disk blackText)).2 ∧
      Job.Ends (Disk.files.build config now) (disk "null") result'
        (Disk.files.build config now (disk "null")).2 ∧
      ProductTokens.SameExceptDark config.product (document black) (document .null) ∧
      result.written = result'.written ∧
      ∀ path ∈ result.written, path ∉ config.darkPaths →
        ∃ octets, (Disk.files.build config now (disk blackText)).2.readOctets path = .ok octets ∧
          (Disk.files.build config now (disk "null")).2.readOctets path = .ok octets := by
  obtain ⟨result, hbuild⟩ := builds_black
  obtain ⟨result', hbuild'⟩ := builds_null
  obtain ⟨hpaths, -, hheld⟩ := Files.light_outputs_without_dark hbuild hbuild' loads_black loads_null
    rfl rfl (sameExceptDark black .null)
  exact ⟨result, result', hbuild, hbuild', sameExceptDark _ _, hpaths, hheld (by decide)⟩

end DesignTokens
