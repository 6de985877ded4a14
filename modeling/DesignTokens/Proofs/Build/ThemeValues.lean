import DesignTokens.Proofs.Build.Completion
import DesignTokens.Proofs.Product
import DesignTokens.Proofs.Reference
import DesignTokens.Proofs.Scope

/-!
# The values of theme stylesheets

In the layered layout a theme color that refers to a source color of its product is declared with
the value of that color as it is written there, and any other theme color with its own value:
`theme_sheets_resolve`. What stands for a reference is not looked at again, so a source color that
is itself a reference is declared as it is.
-/

namespace DesignTokens

/-- The text that a group of source colors gives to a name: the value of the token under it, or the
raw text there. -/
def Group.SourceColor (colors : Group) (name text : String) : Prop :=
  (∃ t, colors.child? name = some (.token t) ∧ t.value = .str text) ∨
    colors.child? name = some (.raw (.str text))

/-- What the value of a theme color stands for: the source color that it refers to when there is
one, and the value itself in every other case. -/
inductive StandsFor (scopeId : String) (colors : Group) (value : String) : String → Prop where
  | color {name text : String} (hname : Reference.isName name.toList = true)
      (hvalue : value = Reference.format scopeId name) (hcolor : colors.SourceColor name text) :
      StandsFor scopeId colors value text
  | verbatim (hnone : ∀ name text, Reference.isName name.toList = true →
      value = Reference.format scopeId name → ¬ colors.SourceColor name text) :
      StandsFor scopeId colors value value

variable {colors : Group} {scope : Scope} {name value text : String}

/-- A group gives a name one text at most. -/
theorem Group.SourceColor.unique {other : String} (h : colors.SourceColor name text)
    (hother : colors.SourceColor name other) : text = other := by
  rcases h with ⟨t, ht, htext⟩ | hraw <;> rcases hother with ⟨u, hu, hutext⟩ | hraw'
  · cases ht.symm.trans hu
    exact Json.str.inj (htext.symm.trans hutext)
  · cases ht.symm.trans hraw'
  · cases hraw.symm.trans hu
  · exact Json.str.inj (Node.raw.inj (Option.some.inj (hraw.symm.trans hraw')))

/-- A value stands for one text only. -/
theorem StandsFor.unique {scopeId other : String} (h : StandsFor scopeId colors value text)
    (hother : StandsFor scopeId colors value other) : text = other := by
  cases h with
  | color hname hvalue hcolor =>
      cases hother with
      | color hname' hvalue' hcolor' =>
          obtain rfl := Reference.format_injective scopeId (hvalue.symm.trans hvalue')
          exact hcolor.unique hcolor'
      | verbatim hnone => exact absurd hcolor (hnone _ _ hname hvalue)
  | verbatim hnone =>
      cases hother with
      | color hname hvalue hcolor => exact absurd hcolor (hnone _ _ hname hvalue)
      | verbatim _ => rfl

/-- A scope whose tokens have texts as their values gives a name the text of its source color. -/
theorem Scope.lookup_eq_some_iff (hcolors : scope.colors = colors)
    (htexts : ∀ name t, colors.child? name = some (.token t) → ∃ text, t.value = .str text)
    {color : Json} :
    scope.lookup name = some color ↔ ∃ text, color = .str text ∧ colors.SourceColor name text := by
  rw [lookup_eq_some_iff_storesColor, hcolors]
  constructor
  · intro h
    cases h with
    | token hchild hvalue =>
        obtain ⟨text, htext⟩ := htexts _ _ hchild
        exact ⟨text, htext, Or.inl ⟨_, hchild, htext⟩⟩
    | text hchild => exact ⟨_, rfl, Or.inr hchild⟩
  · intro h
    obtain ⟨text, rfl, ⟨t, hchild, htext⟩ | hchild⟩ := h
    · rw [← htext]
      exact .token hchild (by rw [htext]; exact nofun)
    · exact .text hchild

/-- In a scope of dotted segments a value that is no reference to another scope denotes what it
stands for. -/
theorem standsFor_denoted (hcolors : scope.colors = colors)
    (htexts : ∀ name t, colors.child? name = some (.token t) → ∃ text, t.value = .str text)
    (hscope : Reference.isScope (scope.id.toList.splitOn '.') = true)
    (hmatch : mismatch? (some scope) (.str value) = none) :
    StandsFor scope.id colors value (denoted (some scope) (.str value)).display := by
  have hid : scope.id ≠ Scope.anyId := by
    intro hany
    rw [hany] at hscope
    exact absurd hscope (by decide)
  have hvalues : (Json.str value).str?.bind Reference.parse? = Reference.parse? value := rfl
  unfold denoted
  rw [hvalues]
  -- A value that is written for a name reads as the reference to this name.
  have hread {name : String} (hname : Reference.isName name.toList = true)
      (hvalue : value = Reference.format scope.id name) :
      Reference.parse? value = some ⟨value, scope.id, name⟩ := by
    rw [hvalue]
    exact Reference.parse?_format hscope hname
  cases hparse : Reference.parse? value with
  | none =>
      refine .verbatim fun name text hname hvalue => ?_
      cases hparse.symm.trans (hread hname hvalue)
  | some reference =>
      obtain ⟨-, hvalue, -, hname⟩ := Reference.parse?_eq_some_iff.1 hparse
      rw [scope_of_mismatch?_eq_none hid hmatch (hvalues.trans hparse)] at hvalue
      dsimp only
      cases hlookup : scope.lookup reference.name with
      | some color =>
          obtain ⟨text, rfl, hcolor⟩ := (Scope.lookup_eq_some_iff hcolors htexts).1 hlookup
          exact .color hname hvalue hcolor
      | none =>
          refine .verbatim fun name text hother hformat hcolor => ?_
          cases hparse.symm.trans (hread hother hformat)
          have hfound := (Scope.lookup_eq_some_iff hcolors htexts).2 ⟨text, rfl, hcolor⟩
          cases hlookup.symm.trans hfound

namespace Files

variable {config : BuildConfig} {document : Fields Json} {now : Moment} {before after : Disk}

/-- After a build of a product in the layered layout with source colors, without an identifier of
its own for the scope, the stylesheets of both themes declare the entries of the walks of the theme
trees in order, each with what its value stands for. -/
theorem theme_sheets_resolve {result : BuildResult}
    (hbuild : Job.Ends (Disk.files.build config now) before result after)
    (hload : Job.Ends (Disk.files.loadTokens config) before document before)
    (hid : config.scopeId.getD "" = "")
    (hproduct : Reference.isScope
      ((Validation.productPath config.product).toList.splitOn '.') = true) {x : Json}
    (hcolors : (Json.obj document).at? [coreKey, config.product, sourceKey, colorKey] = some x)
    (hgroup : Node.ofJson x = .group colors) (hne : colors ≠ []) :
    let tokens := ProductTokens.extract document config.product config.scopeId
    ∀ f ∈ [BuildConfig.lightFiles tokens, BuildConfig.darkFiles tokens],
      ∃ es declarations, (f.tree.walk .collapsed "").result = .ok es ∧
        after.readOctets (config.outputPath "css" f.sheetName) =
          .ok (Stylesheet.render ⟨f.selector, declarations⟩).toUTF8 ∧
        List.Forall₂ (fun (e : Entry) (d : Declaration) => d.name = e.path ∧
            ∃ value, e.token.value = .str value ∧
              StandsFor (Validation.productPath config.product) colors value d.value)
          es declarations := by
  intro tokens f hf
  have hslash := Reference.slash_not_mem_of_isScope hproduct
  have hsub {c : Char} (hc : c ∈ config.product.toList) :
      c ∈ (Validation.productPath config.product).toList := by
    rw [Validation.productPath, String.toList_append]
    exact List.mem_append_right _ hc
  obtain ⟨s, hs, hfile⟩ := theme_sheets_held hbuild hload (fun hc => hslash (hsub hc)) f hf
  obtain ⟨rs, hrs, rfl⟩ := Group.stylesheet_eq_ok_iff.1 hs
  have hmatch := Group.mismatch?_of_resolved hrs
  obtain ⟨hwalk, rfl⟩ := Group.resolved_eq_ok hrs
  refine ⟨_, _, hwalk, hfile, ?_⟩
  obtain ⟨fields, hlayered, -⟩ := ProductTokens.exists_layered_of_at? hcolors
  obtain ⟨-, -, hscope⟩ := ProductTokens.extract_of_layered hlayered hid
  replace hscope : tokens.scope.id = Validation.productPath config.product := hscope
  obtain ⟨hown, body, htree⟩ :
      f.scope = some tokens.scope ∧ ∃ body, f.tree = Group.ofFields body := by
    rcases List.mem_cons.1 hf with rfl | hf
    · exact ⟨rfl, _, rfl⟩
    · rw [List.mem_singleton.1 hf]
      exact ⟨rfl, _, rfl⟩
  rw [hown] at hmatch ⊢
  rw [List.map_map, List.forall₂_map_right_iff, List.forall₂_same]
  intro e he
  obtain ⟨value, hvalue⟩ : ∃ value, e.token.value = .str value := by
    rw [htree, Group.entries_eq_map_sites] at he
    obtain ⟨site, hsite, rfl⟩ := List.mem_map.1 he
    exact (Group.everyChild_text_ofFields body).of_site hsite
  refine ⟨rfl, value, hvalue, ?_⟩
  have hnone := hmatch e he
  rw [hvalue] at hnone
  rw [← hscope] at hproduct ⊢
  have hdenoted := standsFor_denoted (ProductTokens.colors_of_extract hcolors hgroup hne)
    (Group.exists_text_of_child? hgroup) hproduct hnone
  rw [← hvalue] at hdenoted
  exact hdenoted

end Files

/-! ## Theme colors that refer to an alias and to a raw text -/

namespace AliasedBrand

/-- The colors of the product: `brand` refers to `base`, and `ink` is a raw text. -/
def sourceColors : Fields Json :=
  [("brand", .obj [("value", .str "\x7bcore.p.source.color.base\x7d"), ("type", .str "color")]),
   ("base", .obj [("value", .str "#00cc92"), ("type", .str "color")]),
   ("ink", .str "#111111")]

/-- A document in which the themes refer to these colors and to one that is missing. -/
def document : Fields Json :=
  [("core", .obj [("p", .obj
    [("source", .obj [("color", .obj sourceColors)]),
     ("theme", .obj
      [("light", .obj [("color", .obj
        [("a", .obj [("value", .str "\x7bcore.p.source.color.brand\x7d"), ("type", .str "color")]),
         ("b", .obj [("value", .str "\x7bcore.p.source.color.ink\x7d"),
           ("type", .str "color")])])]),
       ("dark", .obj [("color", .obj
        [("a", .obj [("value", .str "\x7bcore.p.source.color.none\x7d"),
          ("type", .str "color")])])])])])])]

/-- The text of that document. -/
def documentText : String :=
  "\x7b\"core\":\x7b\"p\":\x7b" ++
    "\"source\":\x7b\"color\":\x7b" ++
    "\"brand\":\x7b\"value\":\"\x7bcore.p.source.color.base\x7d\",\"type\":\"color\"\x7d," ++
    "\"base\":\x7b\"value\":\"#00cc92\",\"type\":\"color\"\x7d," ++
    "\"ink\":\"#111111\"\x7d\x7d," ++
    "\"theme\":\x7b\"light\":\x7b\"color\":\x7b\"a\":\x7b" ++
    "\"value\":\"\x7bcore.p.source.color.brand\x7d\",\"type\":\"color\"\x7d," ++
    "\"b\":\x7b\"value\":\"\x7bcore.p.source.color.ink\x7d\",\"type\":\"color\"\x7d\x7d\x7d," ++
    "\"dark\":\x7b\"color\":\x7b\"a\":\x7b" ++
    "\"value\":\"\x7bcore.p.source.color.none\x7d\",\"type\":\"color\"\x7d\x7d\x7d\x7d\x7d\x7d\x7d"

/-- A disk with that text. -/
def disk : Disk :=
  { entries := [(["t"], .file documentText.toUTF8)] }

/-- The build of that document. -/
def config : BuildConfig :=
  { tokensPath := ⟨"", ["t"]⟩, product := "p", outputFolder := ⟨"", ["o"]⟩, checkVersions := false }

/-- The moment of the build. -/
def now : Moment :=
  ⟨⟨2024, 1, 2⟩, 3, 4, 5, 678901, some 0⟩

/-- The text is read as the document. -/
theorem reads : Disk.files.readObject config.tokensPath disk = (.ok document, disk) := by
  -- The characters are taken piece by piece, since those of a long text are slow to evaluate.
  have htext : '\r' ∉ documentText.toList ∧
      Json.readAll documentText.toList = .ok (.obj document) := by
    unfold documentText
    simp only [String.toList_append]
    decide +kernel
  exact Disk.readObject_of_text rfl htext.1 htext.2

/-- The build loads the document. -/
theorem loads : Job.Ends (Disk.files.loadTokens config) disk document disk :=
  Files.loadTokens_ends rfl reads

/-- The build succeeds. -/
theorem builds : ∃ result,
    Job.Ends (Disk.files.build config now) disk result (Disk.files.build config now disk).2 :=
  Files.exists_build_ends rfl loads nofun (by decide +kernel)

end AliasedBrand

open AliasedBrand in
/-- The stylesheets of these themes are as `theme_sheets_resolve` says. -/
theorem aliased_brand_resolved :
    ∃ result, Job.Ends (Disk.files.build config now) disk result
        (Disk.files.build config now disk).2 ∧
      Job.Ends (Disk.files.loadTokens config) disk document disk ∧
      config.scopeId.getD "" = "" ∧
      Reference.isScope
        ((Validation.productPath config.product).toList.splitOn '.') = true ∧
      (Json.obj document).at? [coreKey, config.product, sourceKey, colorKey] =
        some (.obj sourceColors) ∧
      Node.ofJson (.obj sourceColors) = .group (Group.ofFields sourceColors) ∧
      Group.ofFields sourceColors ≠ [] ∧
      let tokens := ProductTokens.extract document config.product config.scopeId
      ∀ f ∈ [BuildConfig.lightFiles tokens, BuildConfig.darkFiles tokens],
        ∃ es declarations, (f.tree.walk .collapsed "").result = .ok es ∧
          (Disk.files.build config now disk).2.readOctets (config.outputPath "css" f.sheetName) =
            .ok (Stylesheet.render ⟨f.selector, declarations⟩).toUTF8 ∧
          List.Forall₂ (fun (e : Entry) (d : Declaration) => d.name = e.path ∧
              ∃ value, e.token.value = .str value ∧
                StandsFor (Validation.productPath config.product) (Group.ofFields sourceColors)
                  value d.value)
            es declarations := by
  obtain ⟨result, hbuild⟩ := builds
  have hproduct : Reference.isScope
      ((Validation.productPath config.product).toList.splitOn '.') = true := by decide
  have hne : Group.ofFields sourceColors ≠ [] := List.cons_ne_nil _ _
  exact ⟨result, hbuild, loads, rfl, hproduct, rfl, rfl, hne,
    Files.theme_sheets_resolve hbuild loads rfl hproduct rfl rfl hne⟩

end DesignTokens
