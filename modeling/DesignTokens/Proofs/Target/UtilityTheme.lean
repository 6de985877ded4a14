import DesignTokens.Proofs.Json.Structure
import DesignTokens.Proofs.Naming
import DesignTokens.Proofs.Target.Agreement
import DesignTokens.Proofs.Tree.Leaves
import DesignTokens.Proofs.Tree.Reading
import DesignTokens.Target.UtilityTheme

/-!
# The references of utility themes

A utility theme refers to custom properties by paths of its own, which it derives from the keys of
categories. The references of a category are those to its leaves whose keys are not the one of theme
wrappers (`leaves_variableTree`), and a walk of the whole tree reaches these leaves under the same
paths. So whenever a stylesheet can be made from a tree, it declares every property that the utility
theme reads: `utilityTheme_reads_declared`.
-/

namespace DesignTokens

/-! ## The references of one group -/

/-- The reference that reads the property of a leaf below a path. -/
def Leaf.asReference (base : String) (l : Leaf) : Json :=
  .str (variableReference (l.path base))

/-- The leaves of a group whose keys are not the one of theme wrappers. -/
def Group.plainLeaves (g : Group) : List Leaf :=
  (Group.leaves g).filter fun l => themeKey ∉ l.keys

mutual

/-- What stands for a node holds the references to its leaves. -/
theorem Node.leaves_variableTree? (base key : String) (hkey : key ≠ themeKey) : (node : Node) →
    ((node.variableTree? (joinPath base key)).map Json.leaves).getD [] =
      ((node.leaves key).filter fun l => themeKey ∉ l.keys).map (Leaf.asReference base)
  | .token t => by
      have hplain : themeKey ∉ (⟨[], key, t⟩ : Leaf).keys := by
        simp [Leaf.keys, Ne.symm hkey]
      rw [Node.leaves, List.filter_cons_of_pos (by simpa using hplain), List.filter_nil]
      rfl
  | .raw x => rfl
  | .group children => by
      have hbelow := Group.leaves_variableTree (joinPath base key) children
      have hplain : (fun l : Leaf => decide (themeKey ∉ l.keys)) ∘ Leaf.under key =
          fun l => decide (themeKey ∉ l.keys) := by
        funext l
        simp [Ne.symm hkey]
      rw [Node.leaves, List.filter_map, hplain, List.map_map]
      refine Eq.trans ?_ hbelow
      -- A group without references is left out, and has no leaves of its own.
      rw [Node.variableTree?]
      cases Group.variableTree (joinPath base key) children with
      | nil => rfl
      | cons field fields => rfl

/-- The references to the tokens of a group are those to its leaves whose keys are not the one of
theme wrappers, in the same order. -/
theorem Group.leaves_variableTree (base : String) : (g : List (String × Node)) →
    Json.fieldLeaves (Group.variableTree base g) = (Group.plainLeaves g).map (Leaf.asReference base)
  | [] => rfl
  | (key, node) :: rest => by
      have hrest := Group.leaves_variableTree base rest
      rw [Group.plainLeaves] at hrest ⊢
      rw [Group.variableTree, Group.leaves, List.filter_append, List.map_append, ← hrest]
      by_cases hkey : key = themeKey
      · have hnone : (node.leaves key).filter (fun l => themeKey ∉ l.keys) = [] := by
          refine List.filter_eq_nil_iff.2 fun l hl => ?_
          have hhead := Group.head?_keys_of_mem hl
          simpa [hkey] using List.mem_of_mem_head? hhead
        rw [if_pos hkey, hnone]
        rfl
      · have hnode := Node.leaves_variableTree? base key hkey node
        rw [if_neg hkey, ← hnode]
        cases node.variableTree? (joinPath base key) with
        | none => rfl
        | some x => rfl

end

/-- Unwrapping a theme gives its first variant and the colors of that variant. -/
theorem Group.unwrapTheme_result (variant : String) (body : Node) (others : Group) :
    (Group.unwrapTheme ((variant, body) :: others)).result =
      .ok (some variant, body.children?.bind fun inner => Group.group? inner colorKey) := by
  simp only [Group.unwrapTheme]
  by_cases hmany : 1 < ((variant, body) :: others).length
  · rw [if_pos hmany]
    rfl
  · rw [if_neg hmany]
    rfl

namespace UtilityTheme

/-! ## The references of a theme -/

/-- Putting the references of one category into a theme adds no others. -/
theorem mem_addCategory {root : Group} {theme : Fields Json} {category : List String × String}
    {x : Json} (hx : x ∈ Json.fieldLeaves (addCategory root theme category)) :
    x ∈ Json.fieldLeaves theme ∨ x ∈ Json.fieldLeaves (categoryVariables root category.1) := by
  unfold addCategory at hx
  dsimp only at hx
  split at hx
  · exact Or.inl hx
  · obtain ⟨field, hfield, hleaf⟩ := Json.mem_fieldLeaves_iff.1 hx
    rcases Fields.mem_insert hfield with rfl | hold
    · obtain ⟨inner, hinner, hleaf⟩ := Json.mem_fieldLeaves_iff.1 hleaf
      rcases Fields.mem_insertAll hinner with hpresent | hnew
      · -- What is present under the theme key is part of the theme.
        cases hget : (theme.get? category.2).bind Json.fields? with
        | none =>
            rw [hget] at hpresent
            cases hpresent
        | some present =>
            rw [hget] at hpresent
            have hobject := Json.bind_fields?_eq_some_iff.1 hget
            refine Or.inl (Json.mem_fieldLeaves_iff.2 ⟨_, Fields.mem_of_get? hobject, ?_⟩)
            exact Json.mem_fieldLeaves_iff.2 ⟨inner, hpresent, hleaf⟩
      · exact Or.inr (Json.mem_fieldLeaves_iff.2 ⟨inner, hnew, hleaf⟩)
    · exact Or.inl (Json.mem_fieldLeaves_iff.2 ⟨field, hold, hleaf⟩)

/-- A theme made from categories one after the other holds their references only. -/
theorem mem_foldl_addCategory {root : Group} {theme : Fields Json}
    {cs : List (List String × String)} {x : Json}
    (hx : x ∈ Json.fieldLeaves (cs.foldl (addCategory root) theme)) :
    x ∈ Json.fieldLeaves theme ∨
      ∃ category ∈ cs, x ∈ Json.fieldLeaves (categoryVariables root category.1) := by
  induction cs generalizing theme with
  | nil => exact Or.inl hx
  | cons category cs ih =>
      rcases ih hx with hstep | hlater
      · rcases mem_addCategory hstep with hbefore | hnew
        · exact Or.inl hbefore
        · exact Or.inr ⟨category, List.mem_cons_self, hnew⟩
      · obtain ⟨other, hother, hleaf⟩ := hlater
        exact Or.inr ⟨other, List.mem_cons_of_mem _ hother, hleaf⟩

/-- Everything in a theme is the reference to a leaf of a category. -/
theorem mem_ofRoot {root : Group} {x : Json} (hx : x ∈ Json.fieldLeaves (ofRoot root)) :
    ∃ category ∈ categories, ∃ h, root.at? category.1 = some (.group h) ∧
      ∃ l ∈ Group.plainLeaves h, x = l.asReference ("-".intercalate category.1) := by
  rcases mem_foldl_addCategory hx with hnone | hcategory
  · cases hnone
  · obtain ⟨category, hmem, hleaf⟩ := hcategory
    refine ⟨category, hmem, ?_⟩
    unfold categoryVariables at hleaf
    cases hat : (root.at? category.1).bind Node.children? with
    | none =>
        rw [hat] at hleaf
        cases hleaf
    | some h =>
        rw [hat] at hleaf
        dsimp only at hleaf
        rw [Group.leaves_variableTree] at hleaf
        obtain ⟨l, hl, rfl⟩ := List.mem_map.1 hleaf
        obtain ⟨node, hnode, hchildren⟩ := Option.bind_eq_some_iff.1 hat
        cases node with
        | token t => cases hchildren
        | raw y => cases hchildren
        | group g =>
            cases hchildren
            exact ⟨h, hnode, l, hl, rfl⟩

/-! ## Categories as places of a walk -/

/-- A category is the colors, or a group that does not stand among them. Its keys are not empty and
not the one of theme wrappers. -/
theorem categories_cases {category : List String × String} (h : category ∈ categories) :
    (category.1 = [colorKey] ∨ ∃ key keys, category.1 = key :: keys ∧ key ≠ colorKey) ∧
      category.1 ≠ [] ∧ "" ∉ category.1 ∧ themeKey ∉ category.1 := by
  simp only [categories, List.mem_cons, List.not_mem_nil, or_false] at h
  rcases h with rfl | rfl | rfl | rfl | rfl | rfl | rfl | rfl | rfl | rfl | rfl | rfl <;>
    simp [colorKey, themeKey]

variable {g root h : Group}

/-- The group in which categories are looked up is the tree, or the tree with the colors of the
first theme variant as its own. -/
theorem exists_categoryRoot (g : Group) :
    ∃ root, (categoryRoot g).result = .ok root ∧
      (root = g ∨ ∃ variant colors, g.descend? (.theme variant) = some colors ∧
        root = g.add colorKey (.group colors)) := by
  unfold categoryRoot
  cases hwrapper : g.group? themeKey with
  | none => exact ⟨g, rfl, Or.inl rfl⟩
  | some wrapper =>
      cases g.group? colorKey with
      | some own => exact ⟨g, rfl, Or.inl rfl⟩
      | none =>
          cases wrapper with
          | nil => exact ⟨g, rfl, Or.inl rfl⟩
          | cons first others =>
              obtain ⟨variant, body⟩ := first
              have hunwrap := Group.unwrapTheme_result variant body others
              dsimp only
              cases hcolors : body.children?.bind fun inner => Group.group? inner colorKey with
              | none =>
                  refine ⟨g, Outcome.andThen_eq_ok_iff.2 ⟨_, hunwrap, ?_⟩, Or.inl rfl⟩
                  rw [hcolors]
                  rfl
              | some colors =>
                  refine ⟨_, Outcome.andThen_eq_ok_iff.2 ⟨_, hunwrap, ?_⟩,
                    Or.inr ⟨variant, colors, ?_, rfl⟩⟩
                  · rw [hcolors]
                    rfl
                  · simp [Group.descend?, hwrapper, hcolors]

/-- A walk comes to the group of a category, under the path that joins the keys of the category. -/
theorem exists_steps_to_category
    (hroot : root = g ∨ ∃ variant colors, g.descend? (.theme variant) = some colors ∧
      root = g.add colorKey (.group colors))
    {category : List String × String} (hcategory : category ∈ categories)
    (hat : root.at? category.1 = some (.group h)) :
    ∃ steps, g.follow? steps = some h ∧
      steps.foldl (fun path step => joinPath path (step.segment .collapsed)) "" =
        "-".intercalate category.1 := by
  obtain ⟨hcases, hne, hempty, htheme⟩ := categories_cases hcategory
  have hplain (hown : g.at? category.1 = some (.group h)) :
      ∃ steps, g.follow? steps = some h ∧
        steps.foldl (fun path step => joinPath path (step.segment .collapsed)) "" =
          "-".intercalate category.1 := by
    refine ⟨category.1.map .child, Group.follow?_map_child htheme hown, ?_⟩
    rw [List.foldl_map]
    exact foldl_joinPath hne (Or.inr hempty)
  rcases hroot with rfl | ⟨variant, colors, hstep, rfl⟩
  · exact hplain hat
  · rcases hcases with hcolor | ⟨key, keys, hsplit, hkey⟩
    · -- The colors are those of the variant, and both are named by the color key.
      rw [hcolor, Group.at?_eq, Node.at?_group_cons, Group.add, Fields.get?_insert, if_pos rfl]
        at hat
      cases hat
      refine ⟨[.theme variant], ?_, ?_⟩
      · rw [Group.follow?, hstep]
        rfl
      · rw [hcolor, String.intercalate_singleton]
        rfl
    · -- Other categories are where they were.
      refine hplain ?_
      rw [hsplit, Group.at?_eq, Node.at?_group_cons, Group.add, Fields.get?_insert,
        if_neg (Ne.symm hkey)] at hat
      rw [hsplit, Group.at?_eq, Node.at?_group_cons]
      exact hat

end UtilityTheme

namespace Group

variable {g h : Group}

/-- The names that a stylesheet declares are the paths of the sites of its tree. -/
theorem exists_declaration_of_site {scope : Option Scope} {selector : Selector} {s : Stylesheet}
    (hs : (g.stylesheet selector scope).result = .ok s) {site : Site} (hsite : site ∈ g.sites) :
    ∃ d ∈ s.declarations, d.name = site.path .collapsed "" := by
  have hname : site.path .collapsed "" ∈ s.declarations.map Declaration.name := by
    rw [(names_of_stylesheet hs).1]
    exact List.mem_map_of_mem hsite
  exact List.mem_map.1 hname

end Group

/-- A tree from which a stylesheet can be made, whatever the scope, has a utility theme, and
everything in this theme that is no object is the reference to a property that the stylesheet
declares. -/
theorem utilityTheme_reads_declared {g : Group} (hg : g.WellFormed) {scope : Option Scope}
    {selector : Selector} {s : Stylesheet} (hs : (g.stylesheet selector scope).result = .ok s) :
    ∃ theme, g.utilityTheme.result = .ok theme ∧
      ∀ x ∈ (Json.obj theme).leaves, ∃ d ∈ s.declarations, x = .str (variableReference d.name) := by
  obtain ⟨root, hresult, hroot⟩ := UtilityTheme.exists_categoryRoot g
  refine ⟨_, Outcome.andThen_done_eq_ok_iff.2 ⟨root, hresult, rfl⟩, fun x hx => ?_⟩
  obtain ⟨category, hcategory, h, hat, l, hl, rfl⟩ := UtilityTheme.mem_ofRoot hx
  obtain ⟨steps, hsteps, hpath⟩ := UtilityTheme.exists_steps_to_category hroot hcategory hat
  obtain ⟨hleaf, hkeys⟩ := List.mem_filter.1 hl
  have hsite : l.site steps ∈ g.sites :=
    Group.site_of_leaf hg hsteps (hg.follow? hsteps) hleaf (of_decide_eq_true hkeys)
  obtain ⟨d, hd, hname⟩ := Group.exists_declaration_of_site hs hsite
  refine ⟨d, hd, ?_⟩
  rw [hname, Leaf.path_site, hpath]
  rfl

/-- A tree with a theme variant, a token in the place of colors and a category of two keys. -/
def darkScale : Fields Json :=
  [("theme", .obj [("dark", .obj [("color", .obj [("brand", .obj
      [("ink", .obj [("value", .str "#111111"), ("type", .str "color")])])])])]),
   ("color", .obj [("value", .str "#00cc92"), ("type", .str "color")]),
   ("typography", .obj [("fontSize", .obj
      [("small", .obj [("value", .str "12px"), ("type", .str "dimension")])])])]

/-- The utility theme of that tree reads what its stylesheet declares. -/
theorem darkScale_reads_declared :
    Group.WellFormed (Group.ofFields darkScale) ∧
      ∃ s, (Group.stylesheet .dark none (Group.ofFields darkScale)).result = .ok s ∧
        ∃ theme, (Group.utilityTheme (Group.ofFields darkScale)).result = .ok theme ∧
          ∀ x ∈ (Json.obj theme).leaves,
            ∃ d ∈ s.declarations, x = .str (variableReference d.name) := by
  have hdocument : (Json.obj darkScale).WellFormed := by
    simp [darkScale, Json.WellFormed, Json.FieldsWellFormed, Fields.WellFormed]
  have hg : Group.WellFormed (Group.ofFields darkScale) := Group.wellFormed_ofFields hdocument
  have hs : (Group.stylesheet .dark none (Group.ofFields darkScale)).result =
      .ok ⟨.dark, [⟨"color-brand-ink", "#111111"⟩, ⟨"color", "#00cc92"⟩,
        ⟨"typography-fontSize-small", "12px"⟩]⟩ := rfl
  exact ⟨hg, _, hs, utilityTheme_reads_declared hg hs⟩

end DesignTokens
