import DesignTokens.Product
import DesignTokens.Proofs.Tree.Reading
import DesignTokens.Proofs.Tree.SiteLookup

/-!
# Where the tokens of theme trees come from

In the layered layout, a walk of a theme tree reaches nothing but the tokens that are read from the
colors of the theme in the document: `exists_themeColors_of_site`.
-/

namespace DesignTokens

namespace ProductTokens

variable {document tokens : Fields Json} {product variant : String}

/-- The colors of a theme of a product in the layered layout. -/
def themeColors? (document : Fields Json) (product variant : String) : Option (Fields Json) :=
  ((Json.obj document).at? [coreKey, product, themeKey, variant, colorKey]).bind Json.fields?

/-- The tokens of a layered product are the object at its place in the document. -/
theorem layered?_eq (document : Fields Json) (product : String) :
    layered? document product =
      ((Json.obj document).at? [coreKey, product]).bind Json.fields? := by
  rw [Json.bind_fields?_at?_cons]
  simp only [Json.bind_fields?_at?_singleton]
  rfl

/-- The tokens of a layered product stand below the key of layered products. -/
theorem at?_of_layered (h : layered? document product = some tokens) :
    (Json.obj document).at? [coreKey, product] = some (.obj tokens) := by
  rwa [layered?_eq, Json.bind_fields?_eq_some_iff] at h

/-- Where something stands below the place of a layered product, the product has tokens, and it
stands below these. -/
theorem exists_layered_of_at? {key : String} {below : List String} {x : Json}
    (h : (Json.obj document).at? (coreKey :: product :: key :: below) = some x) :
    ∃ tokens, layered? document product = some tokens ∧
      (Json.obj tokens).at? (key :: below) = some x := by
  rw [show coreKey :: product :: key :: below = [coreKey, product] ++ key :: below from rfl,
    Json.at?_append] at h
  obtain ⟨y, hy, hbelow⟩ := Option.bind_eq_some_iff.1 h
  obtain ⟨tokens, rfl⟩ := Json.fields?_of_at?_cons hbelow
  refine ⟨tokens, ?_, hbelow⟩
  rw [layered?_eq, hy]
  rfl

/-- The colors of a theme stand below the tokens of the product. -/
theorem themeColors?_of_layered (h : layered? document product = some tokens) :
    themeColors? document product variant =
      ((Json.obj tokens).at? [themeKey, variant, colorKey]).bind Json.fields? := by
  rw [themeColors?, show [coreKey, product, themeKey, variant, colorKey] =
      [coreKey, product] ++ [themeKey, variant, colorKey] from rfl,
    Json.at?_append, at?_of_layered h, Option.bind_some]

theorem placement_of_layered (h : layered? document product = some tokens) :
    placement document product =
      ⟨.obj tokens, fieldOrEmpty tokens themeKey, coreKey ++ "." ++ product⟩ := by
  rw [placement, h]

/-- The themes of a layered product are those among its tokens. -/
theorem themes_of_layered (h : layered? document product = some tokens) (scopeId : Option String) :
    (extract document product scopeId).light =
        themeTree "light" (fieldOrEmpty tokens themeKey) ∧
      (extract document product scopeId).dark =
        themeTree "dark" (fieldOrEmpty tokens themeKey) := by
  constructor <;> rw [extract, placement_of_layered h]

/-- The themes of a layered product are those among its tokens, and its scope is its place in the
document unless another identifier is given. -/
theorem extract_of_layered (h : layered? document product = some tokens) {scopeId : Option String}
    (hid : scopeId.getD "" = "") :
    (extract document product scopeId).light =
        themeTree "light" (fieldOrEmpty tokens themeKey) ∧
      (extract document product scopeId).dark = themeTree "dark" (fieldOrEmpty tokens themeKey) ∧
        (extract document product scopeId).scope.id = coreKey ++ "." ++ product := by
  obtain ⟨hlight, hdark⟩ := themes_of_layered h scopeId
  refine ⟨hlight, hdark, ?_⟩
  simp [extract, placement_of_layered h, hid]

/-- In the layered layout the scope of a product looks names up among the source colors, when there
are any. -/
theorem colors_of_extract {scopeId : Option String} {x : Json} {colors : Group}
    (hcolors : (Json.obj document).at? [coreKey, product, sourceKey, colorKey] = some x)
    (hgroup : Node.ofJson x = .group colors) (hne : colors ≠ []) :
    (extract document product scopeId).scope.colors = colors := by
  obtain ⟨tokens, hlayered, hbelow⟩ := exists_layered_of_at? hcolors
  obtain ⟨z, hz, hcolor⟩ := Option.bind_eq_some_iff.1 hbelow
  obtain ⟨source, rfl⟩ := Json.fields?_of_at?_cons hcolor
  have hplace : (placement document product).tokens = .obj tokens := by
    rw [placement, hlayered]
  have hfield : Fields.get? (objectFields (.obj tokens)) sourceKey = some (.obj source) := hz
  have hsource : sourceFields (placement document product).tokens = source := by
    rw [hplace]
    simp only [sourceFields, hfield]
    rfl
  have hget : Fields.get? source colorKey = some x := by
    simpa only [Json.at?_obj_cons, Json.at?_nil, Option.bind_fun_some] using hcolor
  have hcolorGroup : Group.group? (extract document product scopeId).source colorKey =
      some colors := by
    rw [Group.group?_eq_some_iff, Group.child?, extract, hsource, Group.get?_ofFields,
      Fields.get?_without, if_neg (by decide), hget, Option.map_some, hgroup]
  obtain ⟨first, rest, rfl⟩ := List.exists_cons_of_ne_nil hne
  have hscope : (extract document product scopeId).scope.tokens =
      (extract document product scopeId).source := rfl
  rw [Scope.colors, hscope, hcolorGroup]

/-- The fields of an object are looked up as in the object. -/
theorem get?_objectFields (x : Json) (key : String) : (objectFields x).get? key = x.field? key := by
  unfold objectFields Json.field?
  cases x.fields? <;> rfl

/-- A blank value has no fields, so what stands below a field with blanks replaced stands below the
field itself. -/
theorem at?_of_fieldOrEmpty {fields : Fields Json} {name key : String} {path : List String}
    {x : Json} (h : (fieldOrEmpty fields name).at? (key :: path) = some x) :
    (Json.obj fields).at? (name :: key :: path) = some x := by
  unfold fieldOrEmpty at h
  rw [Json.at?_obj_cons]
  cases hfield : fields.get? name with
  | none =>
      rw [hfield] at h
      cases h
  | some y =>
      rw [hfield] at h
      dsimp only at h
      by_cases hblank : y.isBlank = true
      · rw [if_pos hblank] at h
        cases h
      · rw [if_neg hblank] at h
        exact h

/-- What stands below a field stands below it with blanks replaced, since a blank value has nothing
below it. -/
theorem fieldOrEmpty_at? {fields : Fields Json} {name key : String} {path : List String} {x : Json}
    (h : (Json.obj fields).at? (name :: key :: path) = some x) :
    (fieldOrEmpty fields name).at? (key :: path) = some x := by
  rw [Json.at?_obj_cons] at h
  obtain ⟨y, hy, hbelow⟩ := Option.bind_eq_some_iff.1 h
  obtain ⟨inner, rfl⟩ := Json.fields?_of_at?_cons hbelow
  unfold fieldOrEmpty
  rw [hy]
  dsimp only
  by_cases hblank : (Json.obj inner).isBlank = true
  · rw [if_pos hblank]
    cases inner with
    | nil => exact hbelow
    | cons field rest => cases hblank
  · rwa [if_neg hblank]

/-- A field with blanks replaced has under a key what stands there below the field itself. -/
theorem field?_fieldOrEmpty (fields : Fields Json) (name key : String) :
    (fieldOrEmpty fields name).field? key = (Json.obj fields).at? [name, key] := by
  have hfield : (fieldOrEmpty fields name).field? key = (fieldOrEmpty fields name).at? [key] := by
    simp only [Json.at?_cons, Json.at?_nil, Option.bind_fun_some]
  rw [hfield]
  exact Option.ext fun x => ⟨at?_of_fieldOrEmpty, fieldOrEmpty_at?⟩

/-- The colors that a walk of a theme tree enters stand in the document of the themes. -/
theorem exists_colors_of_descend {themes : Json} {v : String} {h : Group}
    (hstep : (themeTree variant themes).descend? (.theme v) = some h) :
    ∃ colors, themes.at? [variant, colorKey] = some (.obj colors) ∧ h = Group.ofFields colors := by
  obtain ⟨inner, others, hwrapper, hcolor⟩ := Group.descend?_theme_eq_some_iff.1 hstep
  rw [Group.group?_eq_some_iff, Group.child?, themeTree, Group.get?_ofFields, Fields.get?_cons_self,
    Option.map_some, Option.some.injEq, Node.ofJson_eq_group_iff] at hwrapper
  obtain ⟨variants, hvariants, -, hread⟩ := hwrapper
  cases hvariants
  obtain ⟨⟨rfl, hbody⟩, -⟩ : (v = variant ∧ Node.group inner = Node.ofJson _) ∧ others = [] := by
    simpa [Group.ofFields] using hread
  obtain ⟨body, hobject, -, rfl⟩ := Node.ofJson_eq_group_iff.1 hbody.symm
  rw [Group.group?_eq_some_iff, Group.child?, Group.get?_ofFields, Option.map_eq_some_iff] at hcolor
  obtain ⟨x, hx, hgroup⟩ := hcolor
  obtain ⟨colors, rfl, -, rfl⟩ := Node.ofJson_eq_group_iff.1 hgroup
  refine ⟨colors, ?_, rfl⟩
  cases hobject
  rw [get?_objectFields] at hx
  rw [Json.at?_cons]
  cases hvariant : themes.field? v with
  | none =>
      rw [hvariant] at hx
      cases hx
  | some y =>
      rw [hvariant] at hx
      rw [Option.bind_some, Json.at?_cons, show y.field? colorKey = some (.obj colors) from hx,
        Option.bind_some, Json.at?_nil]

/-- A token that a walk of the theme tree of a layered product reaches is one that a walk of the
theme's colors reaches. -/
theorem exists_themeColors_of_site (htokens : layered? document product = some tokens) {s : Site}
    (hs : s ∈ Group.sites (themeTree variant (fieldOrEmpty tokens themeKey))) :
    ∃ colors, themeColors? document product variant = some colors ∧
      ∃ r ∈ Group.sites (Group.ofFields colors), r.token = s.token := by
  rcases Group.mem_sites_cases.1 hs with htheme | ⟨r, hcolor, -⟩ | hrest
  · obtain ⟨v, h, r, hstep, hr, rfl⟩ := Group.mem_themeSites_iff.1 htheme
    obtain ⟨colors, hcolors, rfl⟩ := exists_colors_of_descend hstep
    refine ⟨colors, ?_, r, hr, rfl⟩
    rw [themeColors?_of_layered htokens, Json.bind_fields?_eq_some_iff]
    exact at?_of_fieldOrEmpty hcolors
  · -- Beside the theme wrapper the tree has nothing.
    cases hcolor
  · cases hrest

end ProductTokens

end DesignTokens
