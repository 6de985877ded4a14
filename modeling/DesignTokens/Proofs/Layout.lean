import DesignTokens.Proofs.Product

/-!
# The layouts of a document

A document may keep the source tokens and the themes of a product below the key of layered
products, beside each other with the source below a key of its own, or beside each other with the
source as the product itself. `extract_layouts_eq` says that a product is read alike from all of
them, once the identifier of its scope is given.
-/

namespace DesignTokens

namespace ProductTokens

/-- The ways a document keeps the source tokens and the themes of a product. -/
inductive Layout where
  /-- The product stands below the key of layered products, and the themes stand in it. -/
  | layered
  /-- The product stands beside the themes. -/
  | flat
  /-- The product stands beside the themes and is its own source. -/
  | bare
  deriving DecidableEq

namespace Layout

/-- The document that keeps the source tokens and the themes of a product. -/
def document (product : String) (source : Fields Json) (themes : Json) : Layout → Fields Json
  | .layered =>
    [(coreKey, .obj [(product, .obj [(sourceKey, .obj source), (themeKey, themes)])])]
  | .flat => [(product, .obj [(sourceKey, .obj source)]), (themeKey, themes)]
  | .bare => [(product, .obj source), (themeKey, themes)]

/-- The layout has a place for the source tokens. Tokens below the key of source tokens would be
taken for the whole source of a product that is its own source. -/
def Admits (source : Fields Json) : Layout → Prop
  | .bare => sourceKey ∉ source.names
  | _ => True

end Layout

section

variable {document source : Fields Json} {product id : String} {themes : Json} {layout : Layout}

/-- The fields of a theme variant, and none when the themes or the variant are no object. -/
def variantFields (variant : String) (themes : Json) : Fields Json :=
  objectFields ((themes.field? variant).getD .null)

/-- A theme tree has one variant, which is read from the fields of the variant. -/
theorem themeTree_eq_singleton (variant : String) (themes : Json) :
    themeTree variant themes =
      [(themeKey, .group [(variant, Node.ofJson (.obj (variantFields variant themes)))])] := by
  -- The wrapper holds an object and nothing else, so it is never read as a token itself.
  have hwrapper : Token.ofFields? [(variant, .obj (variantFields variant themes))] = none :=
    Token.ofFields?_eq_none_of_objects fun field hfield =>
      ⟨variantFields variant themes, by rw [List.mem_singleton.1 hfield]⟩
  rw [themeTree, Group.ofFields, Group.ofFields]
  change [(themeKey, Node.ofJson (.obj [(variant, .obj (variantFields variant themes))]))] = _
  rw [Node.ofJson_obj_of_none hwrapper, Group.ofFields, Group.ofFields]

/-- A theme tree depends on the themes through the variant alone. -/
theorem themeTree_congr {variant : String} {others : Json}
    (h : themes.field? variant = others.field? variant) :
    themeTree variant themes = themeTree variant others := by
  rw [themeTree, themeTree, h]

/-- What is read of a product is fixed by its source fields, its theme variants and the identifier
that is given. -/
theorem extract_eq (hid : id ≠ "")
    (hsource : sourceFields (placement document product).tokens = source)
    (hthemes : ∀ variant, (placement document product).themes.field? variant =
      themes.field? variant) :
    extract document product (some id) =
      { source := Group.ofFields (source.without [themeKey])
        light := themeTree "light" themes
        dark := themeTree "dark" themes
        scope := ⟨id, Group.ofFields (source.without [themeKey])⟩ } := by
  have hgiven : id.isEmpty = false := by
    simpa using hid
  rw [extract, hsource, themeTree_congr (hthemes "light"), themeTree_congr (hthemes "dark")]
  simp only [Option.getD_some, hgiven, Bool.false_eq_true, if_false]

/-- An object is kept as a field, and an empty one is what takes its place. -/
theorem fieldOrEmpty_of_object {fields inner : Fields Json} {name : String}
    (h : fields.get? name = some (.obj inner)) : fieldOrEmpty fields name = .obj inner := by
  rw [fieldOrEmpty, h]
  cases inner with
  | nil => rfl
  | cons field rest => rfl

/-- The variants of a field with blanks replaced are those of the field. -/
theorem field?_fieldOrEmpty_of_get? {fields : Fields Json} {name : String}
    (h : fields.get? name = some themes) (variant : String) :
    (fieldOrEmpty fields name).field? variant = themes.field? variant := by
  rw [field?_fieldOrEmpty, Json.at?_obj_cons, h, Option.bind_some, Json.at?_cons]
  simp only [Json.at?_nil, Option.bind_fun_some]

/-- The source of a product is the object below the key of source tokens. -/
theorem sourceFields_of_entry {tokens : Fields Json}
    (h : tokens.get? sourceKey = some (.obj source)) : sourceFields (.obj tokens) = source := by
  simp only [sourceFields, objectFields, Json.fields?, Option.getD_some, h]

/-- A product without the key of source tokens is its own source. -/
theorem sourceFields_of_none (h : source.get? sourceKey = none) :
    sourceFields (.obj source) = source := by
  simp only [sourceFields, objectFields, Json.fields?, Option.getD_some, h]

/-- A product below the key of layered products is layered. -/
theorem layered?_layered :
    layered? (Layout.layered.document product source themes) product =
      some [(sourceKey, .obj source), (themeKey, themes)] := by
  simp only [Layout.document, layered?, Fields.get?_cons_self, Option.bind_eq_bind,
    Option.bind_some, Json.fields?]

/-- A document without the key of layered products has no layered product. -/
theorem layered?_eq_none (h : document.get? coreKey = none) : layered? document product = none := by
  rw [layered?, h]
  rfl

/-- A product beside its themes is placed there. -/
theorem placement_beside {tokens : Fields Json} (hcore : product ≠ coreKey)
    (htheme : product ≠ themeKey) :
    placement [(product, .obj tokens), (themeKey, themes)] product =
      ⟨.obj tokens, fieldOrEmpty [(product, .obj tokens), (themeKey, themes)] themeKey, product⟩ ∧
    Fields.get? [(product, Json.obj tokens), (themeKey, themes)] themeKey = some themes := by
  have hplain : Fields.get? [(product, Json.obj tokens), (themeKey, themes)] coreKey = none := by
    rw [Fields.get?_cons_of_ne hcore, Fields.get?_cons_of_ne (by decide), Fields.get?_nil]
  refine ⟨?_, ?_⟩
  · rw [placement, layered?_eq_none hplain, fieldOrEmpty_of_object (Fields.get?_cons_self ..)]
  · rw [Fields.get?_cons_of_ne htheme, Fields.get?_cons_self]

/-- Whatever the layout, the source tokens and the theme variants of the product are found. -/
theorem placement_document (themes : Json) (hcore : product ≠ coreKey)
    (htheme : product ≠ themeKey) (hadmits : layout.Admits source) :
    sourceFields (placement (layout.document product source themes) product).tokens = source ∧
      ∀ variant, (placement (layout.document product source themes) product).themes.field? variant =
        themes.field? variant := by
  cases layout with
  | layered =>
      have hthemes : Fields.get? [(sourceKey, .obj source), (themeKey, themes)] themeKey =
          some themes := by
        rw [Fields.get?_cons_of_ne (by decide), Fields.get?_cons_self]
      rw [placement_of_layered layered?_layered]
      exact ⟨sourceFields_of_entry (Fields.get?_cons_self ..),
        field?_fieldOrEmpty_of_get? hthemes⟩
  | flat =>
      obtain ⟨hplace, hthemes⟩ := placement_beside hcore htheme
      rw [Layout.document, hplace]
      exact ⟨sourceFields_of_entry (Fields.get?_cons_self ..),
        field?_fieldOrEmpty_of_get? hthemes⟩
  | bare =>
      obtain ⟨hplace, hthemes⟩ := placement_beside hcore htheme
      rw [Layout.document, hplace]
      exact ⟨sourceFields_of_none (Fields.get?_eq_none_iff.2 hadmits),
        field?_fieldOrEmpty_of_get? hthemes⟩

/-- A product is read alike from all layouts with a place for its source tokens, once the identifier
of its scope is given. Its source tree has no child under the key of themes, and each theme tree has
one variant. -/
theorem extract_layouts_eq {first second : Layout} (themes : Json) (hcore : product ≠ coreKey)
    (htheme : product ≠ themeKey) (hid : id ≠ "") (hfirst : first.Admits source)
    (hsecond : second.Admits source) :
    let tokens := extract (first.document product source themes) product (some id)
    tokens = extract (second.document product source themes) product (some id) ∧
      tokens.scope = ⟨id, tokens.source⟩ ∧
      tokens.source = Group.ofFields (source.without [themeKey]) ∧
      tokens.source.child? themeKey = none ∧
      tokens.light = [(themeKey, .group
        [("light", Node.ofJson (.obj (variantFields "light" themes)))])] ∧
      tokens.dark = [(themeKey, .group
        [("dark", Node.ofJson (.obj (variantFields "dark" themes)))])] := by
  obtain ⟨hsource, hthemes⟩ := placement_document themes hcore htheme hfirst
  obtain ⟨hsource', hthemes'⟩ := placement_document themes hcore htheme hsecond
  dsimp only
  rw [extract_eq hid hsource hthemes, extract_eq hid hsource' hthemes']
  refine ⟨rfl, rfl, rfl, ?_, themeTree_eq_singleton _ _, themeTree_eq_singleton _ _⟩
  rw [Group.child?, Group.get?_ofFields, Fields.get?_without, if_pos (List.mem_singleton_self _)]
  rfl

end

namespace MixedThemes

/-- Source tokens with a theme of their own. -/
def palette : Fields Json :=
  [("theme", .obj [("light", .obj [])]),
    ("color", .obj [("red", .obj [("value", .str "#f00"), ("type", .str "color")])])]

/-- Themes of which one is no object and the other describes a token. -/
def themes : Json :=
  .obj [("light", .int 0), ("dark", .obj [("value", .str "#000"), ("type", .str "color")])]

end MixedThemes

open MixedThemes in
/-- The theme among the source tokens is left out of the source tree in all layouts, the theme that
is no object is an empty variant, and the theme that describes a token is a variant as well. -/
theorem mixed_themes_layouts_eq :
    ∃ tokens : ProductTokens, (∀ layout : Layout,
        extract (layout.document "web" palette themes) "web" (some "site") = tokens) ∧
      tokens.source = [("color", .group [("red", .token ⟨.str "#f00", .str "color", .null, []⟩)])] ∧
      tokens.scope = ⟨"site", tokens.source⟩ ∧
      tokens.light = [("theme", .group [("light", .group [])])] ∧
      tokens.dark =
        [("theme", .group [("dark", .token ⟨.str "#000", .str "color", .null, []⟩)])] := by
  have hadmits : ∀ layout : Layout, layout.Admits palette := by
    intro layout
    cases layout with
    | layered => trivial
    | flat => trivial
    | bare => simp [Layout.Admits, palette, sourceKey]
  have hcore : "web" ≠ coreKey := by decide
  have htheme : "web" ≠ themeKey := by decide
  have hid : "site" ≠ "" := by decide
  have heq (layout : Layout) :=
    extract_layouts_eq themes hcore htheme hid (hadmits .layered) (hadmits layout)
  obtain ⟨-, hscope, hsource, -, hlight, hdark⟩ := heq .layered
  exact ⟨_, fun layout => (heq layout).1.symm, hsource.trans rfl, hscope, hlight.trans rfl,
    hdark.trans rfl⟩

end ProductTokens

end DesignTokens
