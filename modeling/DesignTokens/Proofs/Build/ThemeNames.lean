import DesignTokens.Proofs.Build.Completion
import DesignTokens.Proofs.Target.Agreement
import DesignTokens.Proofs.Tree.Values
import DesignTokens.Proofs.Validation.ThemeReferences

/-!
# The names of theme stylesheets

A theme tree whose colors are all tokens declares the keys of these colors in order
(`names_of_themeTree`). Validation lets a theme color pass whose type is no text, and such a color
is read as a group. When all theme colors have texts as their types and no theme describes a token
itself, the stylesheets of both themes of a valid document declare the same names:
`theme_sheets_same_names`.
-/

namespace DesignTokens

namespace Group

variable {g : Group}

/-- The sites in the color group among the children, in order. -/
theorem colorSites_eq (g : Group) :
    colorSites g = ((g.group? colorKey).map Group.sites).getD [] := by
  induction g with
  | nil => rfl
  | cons field rest ih =>
      obtain ⟨key, node⟩ := field
      rw [colorSites, group?, child?]
      by_cases hkey : key = colorKey
      · subst hkey
        rw [if_pos rfl, Fields.get?_cons_self]
        cases node <;> rfl
      · rw [if_neg hkey, Fields.get?_cons_of_ne hkey, ih]
        rfl

/-- Tokens among the children are met in order, except for one under the key of theme wrappers. -/
theorem places_restSites (htokens : ∀ field ∈ g, ∃ t, field.2 = .token t) :
    (restSites g).map Site.place =
      ((Fields.names g).filter fun key => key ≠ themeKey).map fun key => ([], key) := by
  induction g with
  | nil => rfl
  | cons field rest ih =>
      obtain ⟨key, node⟩ := field
      obtain ⟨⟨t, ht⟩, hrest⟩ := List.forall_mem_cons.1 htokens
      obtain rfl : node = .token t := ht
      rw [restSites, List.map_append, ih hrest, Fields.names_cons]
      by_cases hkey : key = themeKey
      · rw [if_pos hkey, List.filter_cons_of_neg (by simpa using hkey)]
        rfl
      · rw [if_neg hkey, List.filter_cons_of_pos (by simpa using hkey)]
        by_cases hcolor : key = colorKey
        · rw [if_pos hcolor]
          rfl
        · rw [if_neg hcolor]
          rfl

/-- A walk of a group of tokens meets them in order, except for one under the key of theme
wrappers. -/
theorem places_of_tokens (htokens : ∀ field ∈ g, ∃ t, field.2 = .token t) :
    g.sites.map Site.place =
      ((Fields.names g).filter fun key => key ≠ themeKey).map fun key => ([], key) := by
  have hnone (key : String) (h : Group) : g.group? key ≠ some h := by
    intro hgroup
    obtain ⟨t, ht⟩ := htokens _ (Fields.mem_of_get? (group?_eq_some_iff.1 hgroup))
    cases ht
  have htheme : themeSites g = [] := by
    refine List.eq_nil_iff_forall_not_mem.2 fun s hs => ?_
    obtain ⟨variant, h, r, hstep, -⟩ := mem_themeSites_iff.1 hs
    obtain ⟨inner, others, hwrapper, -⟩ := descend?_theme_eq_some_iff.1 hstep
    exact hnone _ _ hwrapper
  have hcolor : colorSites g = [] := by
    refine List.eq_nil_iff_forall_not_mem.2 fun s hs => ?_
    obtain ⟨h, hgroup, -⟩ := mem_colorSites_iff.1 hs
    exact hnone _ _ hgroup
  rw [sites, Node.sites, htheme, hcolor]
  exact places_restSites htokens

end Group

namespace ProductTokens

variable {themes : Json} {variant : String} {body colors : Fields Json}

/-- A theme that describes no token stands in its tree as a group. -/
theorem themeTree_eq (hbody : themes.field? variant = some (.obj body))
    (hplain : Token.ofFields? body = none) :
    themeTree variant themes = [(themeKey, .group [(variant, .group (Group.ofFields body))])] := by
  have hwrapper : Token.ofFields? [(variant, Json.obj body)] = none :=
    Token.ofFields?_eq_none_of_objects fun field hfield =>
      ⟨body, by rw [List.mem_singleton.1 hfield]⟩
  rw [themeTree, hbody]
  simp only [Option.getD_some, objectFields, Json.fields?, Group.ofFields]
  rw [Node.ofJson_obj_of_none hwrapper, Group.ofFields, Node.ofJson_obj_of_none hplain]
  rfl

/-- The sites of the tree of a theme are those of its colors, behind the step to the theme. -/
theorem sites_themeTree (hbody : themes.field? variant = some (.obj body))
    (hplain : Token.ofFields? body = none) (hcolors : body.get? colorKey = some (.obj colors))
    (hgroup : Token.ofFields? colors = none) :
    Group.sites (themeTree variant themes) =
      (Group.sites (Group.ofFields colors)).map (Site.under (.theme variant)) := by
  have hinner : Group.group? (Group.ofFields body) colorKey = some (Group.ofFields colors) := by
    rw [Group.group?_eq_some_iff, Group.child?, Group.get?_ofFields, hcolors, Option.map_some,
      Node.ofJson_obj_of_none hgroup]
  have hbodySites : Group.colorSites (Group.ofFields body) =
      Group.sites (Group.ofFields colors) := by
    rw [Group.colorSites_eq, hinner]
    rfl
  rw [themeTree_eq hbody hplain, Group.sites, Node.sites, Group.themeSites, if_pos rfl,
    Group.colorSites, if_neg (by decide), Group.restSites, if_pos rfl]
  show (Group.colorSites (Group.ofFields body)).map (Site.under (.theme variant)) ++ [] = _
  rw [hbodySites, List.append_nil]

/-- The names that a stylesheet declares for theme colors: their keys below the color key, in order,
except for the key of theme wrappers. -/
def colorNames (colors : Fields Json) : List String :=
  (colors.names.filter fun key => key ≠ themeKey).map (joinPath colorKey)

/-- A stylesheet of the tree of a theme whose colors are tokens declares their names. -/
theorem names_of_themeTree (hbody : themes.field? variant = some (.obj body))
    (hplain : Token.ofFields? body = none) (hcolors : body.get? colorKey = some (.obj colors))
    (hgroup : Token.ofFields? colors = none)
    (htokens : ∀ field ∈ Group.ofFields colors, ∃ t, field.2 = .token t)
    {scope : Option Scope} {selector : Selector} {s : Stylesheet}
    (hs : (Group.stylesheet selector scope (themeTree variant themes)).result = .ok s) :
    s.declarations.map Declaration.name = colorNames colors := by
  have hpath : Site.path .collapsed "" ∘ Site.under (.theme variant) =
      placePath .collapsed colorKey ∘ Site.place := rfl
  rw [(Group.names_of_stylesheet hs).1, sites_themeTree hbody hplain hcolors hgroup, List.map_map,
    hpath, ← List.map_map, Group.places_of_tokens htokens, Group.names_ofFields, List.map_map]
  rfl

end ProductTokens

namespace Validation

variable {document tokens colors : Fields Json} {product : String}

/-- Neither theme of a product describes a token itself. -/
def PlainThemes (document : Fields Json) (product : String) : Prop :=
  ∀ variant ∈ ["light", "dark"],
    ∀ body ∈ (Json.obj document).at? [coreKey, product, themeKey, variant],
      Token.describedBy body = false

instance (document : Fields Json) (product : String) : Decidable (PlainThemes document product) :=
  inferInstanceAs (Decidable (∀ variant ∈ _, _))

theorem Variant.key_mem (variant : Variant) : variant.key ∈ ["light", "dark"] := by
  cases variant <;> decide

/-- In a document that is valid for a product and whose theme colors all have texts as their types,
all theme colors are read as tokens. -/
theorem tokens_of_valid {variant : Variant} (h : (validate document product).valid = true)
    (htyped : TypedThemes document product)
    (hcolors : ProductTokens.themeColors? document product variant.key = some colors) :
    ∀ field ∈ Group.ofFields colors, ∃ t, field.2 = .token t := by
  intro field hfield
  rw [Group.ofFields_eq_map] at hfield
  obtain ⟨entry, hentry, rfl⟩ := List.mem_map.1 hfield
  obtain ⟨value, hvalue, -⟩ := scope_of_valid h hcolors hentry
  have htype := htyped variant.key variant.key_mem colors hcolors entry hentry
  obtain ⟨t, ht, -⟩ := exists_token_of_texts hvalue htype
  exact ⟨t, ht⟩

/-- In such a document, a stylesheet of the tree of a theme that describes no token itself declares
the names of its colors. -/
theorem names_of_valid (variant : Variant) (h : (validate document product).valid = true)
    (htyped : TypedThemes document product) (hplain : PlainThemes document product)
    (htokens : ProductTokens.layered? document product = some tokens)
    (hcolors : (Json.obj document).at? ((Section.theme variant).keys product) =
      some (.obj colors))
    {g : Group}
    (hg : g = ProductTokens.themeTree variant.key (ProductTokens.fieldOrEmpty tokens themeKey))
    {scope : Option Scope} {selector : Selector} {s : Stylesheet}
    (hs : (g.stylesheet selector scope).result = .ok s) :
    s.declarations.map Declaration.name = ProductTokens.colorNames colors := by
  subst hg
  obtain ⟨found, hfound, hbelow⟩ := ProductTokens.exists_layered_of_at? hcolors
  obtain rfl : tokens = found := Option.some.inj (htokens.symm.trans hfound)
  have hthemes := ProductTokens.fieldOrEmpty_at? hbelow
  rw [Json.at?_cons] at hthemes
  obtain ⟨x, hx, hcolor⟩ := Option.bind_eq_some_iff.1 hthemes
  obtain ⟨body, rfl⟩ := Json.fields?_of_at?_cons hcolor
  have hinner : Fields.get? body colorKey = some (.obj colors) := by
    simpa only [Json.at?_obj_cons, Json.at?_nil, Option.bind_fun_some] using hcolor
  -- The theme stands in the document, where it describes no token.
  have hbody : (Json.obj document).at? [coreKey, product, themeKey, variant.key] =
      some (.obj body) := by
    have hfield : (ProductTokens.fieldOrEmpty tokens themeKey).at? [variant.key] =
        some (.obj body) := by
      rw [Json.at?_cons, hx, Option.bind_some, Json.at?_nil]
    rw [show [coreKey, product, themeKey, variant.key] =
        [coreKey, product] ++ [themeKey, variant.key] from rfl, Json.at?_append,
      ProductTokens.at?_of_layered htokens, Option.bind_some]
    exact ProductTokens.at?_of_fieldOrEmpty hfield
  have hnone : Token.ofFields? body = none :=
    Option.not_isSome_iff_eq_none.1
      (Bool.eq_false_iff.1 (hplain variant.key variant.key_mem _ hbody))
  have hthemeColors : ProductTokens.themeColors? document product variant.key = some colors :=
    Json.bind_fields?_eq_some_iff.2 hcolors
  have hobjects : ∀ entry ∈ colors, ∃ inner, entry.2 = .obj inner := by
    intro entry hentry
    obtain ⟨value, hvalue, -⟩ := scope_of_valid h hthemeColors hentry
    obtain ⟨inner, hfields, -⟩ := Option.bind_eq_some_iff.1 hvalue
    exact ⟨inner, Json.fields?_eq_some_iff.1 hfields⟩
  exact ProductTokens.names_of_themeTree hx hnone hinner
    (Token.ofFields?_eq_none_of_objects hobjects) (tokens_of_valid h htyped hthemeColors) hs

end Validation

namespace Files

variable {config : BuildConfig} {document : Fields Json} {now : Moment} {before after : Disk}

/-- Among the files that a build wrote is the stylesheet of each theme. -/
theorem wrote_theme_sheets {result : BuildResult}
    (hbuild : Job.Ends (Disk.files.build config now) before result after)
    (hload : Job.Ends (Disk.files.loadTokens config) before document before) :
    let tokens := ProductTokens.extract document config.product config.scopeId
    ∃ written, Disk.Wrote before after written ∧
      ∀ f ∈ [BuildConfig.lightFiles tokens, BuildConfig.darkFiles tokens],
        ∃ s, (f.tree.stylesheet f.selector f.scope).result = .ok s ∧
          (config.outputPath "css" f.sheetName, s.render) ∈ written := by
  intro tokens
  obtain ⟨written, -, hwritten, hwrote⟩ := wrote_of_build hbuild hload
  refine ⟨written, hwrote, fun f hf => ?_⟩
  have hplanned : f.sheet config ∈ config.plan document now := by
    rcases List.mem_cons.1 hf with rfl | hf
    · exact List.mem_cons_of_mem _ List.mem_cons_self
    · rw [List.mem_singleton.1 hf]
      exact List.mem_cons_of_mem _ (List.mem_cons_of_mem _ List.mem_cons_self)
  have hmade := hwritten ▸ List.mem_map_of_mem (f := PlannedFile.made) hplanned
  obtain ⟨⟨path, text⟩, hmem, heq⟩ := List.mem_map.1 hmade
  obtain ⟨rfl, htext⟩ : path = (f.sheet config).path ∧ .ok text = (f.sheet config).text.result :=
    Prod.mk.inj heq
  obtain ⟨s, hs, rfl⟩ := Outcome.andThen_done_eq_ok_iff.1 htext.symm
  exact ⟨s, hs, hmem⟩

open Validation in
/-- Take a document that is valid for a product, whose theme colors all have texts as their types
and whose themes describe no tokens themselves. A build of the product that succeeds writes a
stylesheet for each theme, which declares the names of the theme's colors, and both declare the same
names. -/
theorem theme_sheets_same_names {result : BuildResult}
    (hbuild : Job.Ends (Disk.files.build config now) before result after)
    (hload : Job.Ends (Disk.files.loadTokens config) before document before)
    (hvalid : (validate document config.product).valid = true)
    (htyped : TypedThemes document config.product)
    (hplain : PlainThemes document config.product) :
    let tokens := ProductTokens.extract document config.product config.scopeId
    ∃ written light dark, Disk.Wrote before after written ∧
      (tokens.light.stylesheet .root (some tokens.scope)).result = .ok light ∧
      (tokens.dark.stylesheet .dark (some tokens.scope)).result = .ok dark ∧
      (config.outputPath "css" "light.css", light.render) ∈ written ∧
      (config.outputPath "css" "dark.css", dark.render) ∈ written ∧
      (∀ colors, ProductTokens.themeColors? document config.product "light" = some colors →
        light.declarations.map Declaration.name = ProductTokens.colorNames colors) ∧
      (∀ colors, ProductTokens.themeColors? document config.product "dark" = some colors →
        dark.declarations.map Declaration.name = ProductTokens.colorNames colors) ∧
      ∀ name, name ∈ light.declarations.map Declaration.name ↔
        name ∈ dark.declarations.map Declaration.name := by
  intro tokens
  obtain ⟨written, hwrote, hsheets⟩ := wrote_theme_sheets hbuild hload
  obtain ⟨light, hlight, hlightFile⟩ := hsheets _ List.mem_cons_self
  obtain ⟨dark, hdark, hdarkFile⟩ := hsheets _ (List.mem_cons_of_mem _ List.mem_cons_self)
  obtain ⟨found, hlayered⟩ := layered_of_valid hvalid
  obtain ⟨hlightTree, hdarkTree⟩ := ProductTokens.themes_of_layered hlayered config.scopeId
  have hlightNames {colors : Fields Json}
      (hcolors : ProductTokens.themeColors? document config.product "light" = some colors) :
      light.declarations.map Declaration.name = ProductTokens.colorNames colors :=
    names_of_valid .light hvalid htyped hplain hlayered
      (Json.bind_fields?_eq_some_iff.1 hcolors) hlightTree hlight
  have hdarkNames {colors : Fields Json}
      (hcolors : ProductTokens.themeColors? document config.product "dark" = some colors) :
      dark.declarations.map Declaration.name = ProductTokens.colorNames colors :=
    names_of_valid .dark hvalid htyped hplain hlayered
      (Json.bind_fields?_eq_some_iff.1 hcolors) hdarkTree hdark
  refine ⟨written, light, dark, hwrote, hlight, hdark, hlightFile, hdarkFile,
    fun _ => hlightNames, fun _ => hdarkNames, fun name => ?_⟩
  -- The two themes of a valid document have the same keys.
  obtain ⟨colors, hkeeps⟩ := valid_iff_keeps.1 hvalid
  rw [hlightNames (Json.bind_fields?_eq_some_iff.2 (hkeeps.present (.theme .light))),
    hdarkNames (Json.bind_fields?_eq_some_iff.2 (hkeeps.present (.theme .dark)))]
  simp only [ProductTokens.colorNames, List.mem_map, List.mem_filter, hkeeps.names]

end Files

/-! ## A dark color with and without a type -/

namespace DarkType

/-- A document whose themes have one color each, where the dark one has the given type. -/
def document (type : Json) : Fields Json :=
  [("core", .obj [("p", .obj
    [("source", .obj [("color", .obj
      [("a", .obj [("value", .str "#ffffff"), ("type", .str "color")])])]),
     ("theme", .obj
      [("light", .obj [("color", .obj
        [("c", .obj [("value", .str "#ffffff"), ("type", .str "color")])])]),
       ("dark", .obj [("color", .obj
        [("c", .obj [("value", .str "#000000"), ("type", type)])])])])])])]

/-- The text of that document, given the text of the type. -/
def text (type : String) : String :=
  "\x7b\"core\":\x7b\"p\":\x7b" ++
    "\"source\":\x7b\"color\":\x7b\"a\":\x7b" ++
    "\"value\":\"#ffffff\",\"type\":\"color\"\x7d\x7d\x7d," ++
    "\"theme\":\x7b\"light\":\x7b\"color\":\x7b\"c\":\x7b" ++
    "\"value\":\"#ffffff\",\"type\":\"color\"\x7d\x7d\x7d," ++
    "\"dark\":\x7b\"color\":\x7b\"c\":\x7b" ++
    "\"value\":\"#000000\",\"type\":" ++ type ++
    "\x7d\x7d\x7d\x7d\x7d\x7d\x7d"

/-- A disk with that text. -/
def disk (type : String) : Disk :=
  { entries := [(["t"], .file (text type).toUTF8)] }

/-- A build that validates the document. -/
def config : BuildConfig :=
  { tokensPath := ⟨"", ["t"]⟩, product := "p", outputFolder := ⟨"", ["o"]⟩, validate := true,
    checkVersions := false }

/-- The moment of the build. -/
def now : Moment :=
  ⟨⟨2024, 1, 2⟩, 3, 4, 5, 678901, some 0⟩

/-- The build loads the document when its text is read as it. -/
theorem loads_of_reads {type : String} {x : Json}
    (hreads : Disk.files.readObject config.tokensPath (disk type) =
      (.ok (document x), disk type)) :
    Job.Ends (Disk.files.loadTokens config) (disk type) (document x) (disk type) :=
  Files.loadTokens_ends rfl hreads

/-- The texts are read as the documents. -/
theorem reads :
    ('\r' ∉ (text "\"color\"").toList ∧
        Json.readAll (text "\"color\"").toList = .ok (.obj (document (.str "color")))) ∧
      '\r' ∉ (text "null").toList ∧
        Json.readAll (text "null").toList = .ok (.obj (document .null)) := by
  -- The characters are taken piece by piece, since those of a long text are slow to evaluate.
  unfold text
  simp only [String.toList_append]
  decide +kernel

theorem loads_color : Job.Ends (Disk.files.loadTokens config) (disk "\"color\"")
    (document (.str "color")) (disk "\"color\"") :=
  loads_of_reads (Disk.readObject_of_text rfl reads.1.1 reads.1.2)

theorem loads_null : Job.Ends (Disk.files.loadTokens config) (disk "null") (document .null)
    (disk "null") :=
  loads_of_reads (Disk.readObject_of_text rfl reads.2.1 reads.2.2)

/-- Both documents are valid. The types of the one are texts, and its themes are no tokens. -/
theorem valid_color :
    (validate (document (.str "color")) config.product).valid = true ∧
      Validation.TypedThemes (document (.str "color")) config.product ∧
      Validation.PlainThemes (document (.str "color")) config.product := by
  decide +kernel

theorem valid_null : (validate (document .null) config.product).valid = true := by
  decide +kernel

/-- The stages of both builds succeed. -/
theorem stages_succeed :
    (Disk.files.buildStages config now (document (.str "color"))
        (disk "\"color\"")).1.result.toOption.isSome = true ∧
      (Disk.files.buildStages config now (document .null) (disk "null")).1.result.toOption.isSome =
        true := by
  decide +kernel

theorem builds_color : ∃ result, Job.Ends (Disk.files.build config now) (disk "\"color\"") result
    (Disk.files.build config now (disk "\"color\"")).2 :=
  Files.exists_build_ends rfl loads_color (fun _ => valid_color.1) stages_succeed.1

theorem builds_null : ∃ result, Job.Ends (Disk.files.build config now) (disk "null") result
    (Disk.files.build config now (disk "null")).2 :=
  Files.exists_build_ends rfl loads_null (fun _ => valid_null) stages_succeed.2

end DarkType

open DarkType in
/-- With a text as the type of the dark color both stylesheets declare the same name. -/
theorem typed_dark_same_names :
    ∃ result, Job.Ends (Disk.files.build config now) (disk "\"color\"") result
        (Disk.files.build config now (disk "\"color\"")).2 ∧
      Job.Ends (Disk.files.loadTokens config) (disk "\"color\"") (document (.str "color"))
        (disk "\"color\"") ∧
      (validate (document (.str "color")) config.product).valid = true ∧
      Validation.TypedThemes (document (.str "color")) config.product ∧
      Validation.PlainThemes (document (.str "color")) config.product ∧
      let tokens :=
        ProductTokens.extract (document (.str "color")) config.product config.scopeId
      ∃ written light dark, Disk.Wrote (disk "\"color\"")
          (Disk.files.build config now (disk "\"color\"")).2 written ∧
        (tokens.light.stylesheet .root (some tokens.scope)).result = .ok light ∧
        (tokens.dark.stylesheet .dark (some tokens.scope)).result = .ok dark ∧
        (config.outputPath "css" "light.css", light.render) ∈ written ∧
        (config.outputPath "css" "dark.css", dark.render) ∈ written ∧
        (∀ colors, ProductTokens.themeColors? (document (.str "color")) config.product "light" =
          some colors → light.declarations.map Declaration.name = ProductTokens.colorNames colors) ∧
        (∀ colors, ProductTokens.themeColors? (document (.str "color")) config.product "dark" =
          some colors → dark.declarations.map Declaration.name = ProductTokens.colorNames colors) ∧
        ∀ name, name ∈ light.declarations.map Declaration.name ↔
          name ∈ dark.declarations.map Declaration.name := by
  obtain ⟨result, hbuild⟩ := builds_color
  obtain ⟨hvalid, htyped, hplain⟩ := valid_color
  exact ⟨result, hbuild, loads_color, hvalid, htyped, hplain,
    Files.theme_sheets_same_names hbuild loads_color hvalid htyped hplain⟩

open DarkType in
/-- Not every build of a valid document gives its themes stylesheets with the same names: validation
accepts a dark color whose type is null, and this color is read as a group without tokens. -/
theorem untyped_dark_color_lost :
    ¬ ∀ (config : BuildConfig) (now : Moment) (before after : Disk) (result : BuildResult)
      (document : Fields Json), Job.Ends (Disk.files.build config now) before result after →
        Job.Ends (Disk.files.loadTokens config) before document before →
        (validate document config.product).valid = true →
        let tokens := ProductTokens.extract document config.product config.scopeId
        ∀ light dark, (tokens.light.stylesheet .root (some tokens.scope)).result = .ok light →
          (tokens.dark.stylesheet .dark (some tokens.scope)).result = .ok dark →
          ∀ name, name ∈ light.declarations.map Declaration.name ↔
            name ∈ dark.declarations.map Declaration.name := by
  intro h
  obtain ⟨result, hbuild⟩ := builds_null
  have hlight : (Group.stylesheet .root
      (some (ProductTokens.extract (document .null) "p" none).scope)
      (ProductTokens.extract (document .null) "p" none).light).result =
        .ok ⟨.root, [⟨"color-c", "#ffffff"⟩]⟩ := by
    decide +kernel
  have hdark : (Group.stylesheet .dark
      (some (ProductTokens.extract (document .null) "p" none).scope)
      (ProductTokens.extract (document .null) "p" none).dark).result = .ok ⟨.dark, []⟩ := by
    decide +kernel
  have hsame := h config now _ _ result _ hbuild loads_null valid_null _ _ hlight hdark "color-c"
  exact List.not_mem_nil (hsame.1 List.mem_cons_self)

end DesignTokens
