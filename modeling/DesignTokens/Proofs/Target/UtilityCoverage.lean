import DesignTokens.Proofs.Target.UtilityTheme
import DesignTokens.Proofs.Tree.Coverage
import DesignTokens.Proofs.Tree.Values

/-!
# What utility themes cover

Putting categories into a theme one after the other keeps the references of all of them when those
that share a theme key have no key in common (`gathered_foldl`). The references of a category are
those to the sites whose steps begin with the keys of the category (`references_perm`), and no site
begins so for two categories. So when the tokens of a tree stand in categories (`Fits`), its utility
theme reads every property that a stylesheet declares, and reads it once: `utilityTheme_covers`.
-/

namespace DesignTokens

namespace Json

/-- What a value has more than the old one is more in the fields when it is put in its place. -/
theorem fieldLeaves_insert_perm {fields : Fields Json} {name : String} {old value : Json}
    {more : List Json} (hold : fields.get? name = some old)
    (hvalue : value.leaves = old.leaves ++ more) :
    (fieldLeaves (fields.insert name value)).Perm (fieldLeaves fields ++ more) := by
  induction fields with
  | nil => cases hold
  | cons field rest ih =>
      obtain ⟨key, first⟩ := field
      by_cases hkey : key = name
      · subst hkey
        rw [Fields.get?_cons_self] at hold
        cases hold
        rw [Fields.insert, if_pos rfl, fieldLeaves, fieldLeaves, hvalue, List.append_assoc,
          List.append_assoc]
        exact (List.perm_append_comm).append_left _
      · rw [Fields.get?_cons_of_ne hkey] at hold
        rw [Fields.insert, if_neg hkey, fieldLeaves, fieldLeaves, List.append_assoc]
        exact (ih hold).append_left _

end Json

/-- The references below a path stand under keys of the group. -/
theorem Group.names_variableTree_sublist (base : String) (g : Group) :
    (Fields.names (Group.variableTree base g)).Sublist (Fields.names g) := by
  induction g with
  | nil => exact List.Sublist.refl _
  | cons field rest ih =>
      obtain ⟨key, node⟩ := field
      rw [Group.variableTree, Fields.names_cons]
      split
      · exact ih.cons key
      · split
        · exact ih.cons_cons key
        · exact ih.cons key

namespace UtilityTheme

/-! ## Categories that share a theme key -/

variable {root : Group} {cs : List (List String × String)} {theme : Fields Json}

/-- Categories with the same theme key give no references under the same key. -/
def Apart (root : Group) (category other : List String × String) : Prop :=
  category.2 = other.2 → ∀ key ∈ Fields.names (categoryVariables root category.1),
    key ∉ Fields.names (categoryVariables root other.1)

/-- Under each theme key stands an object whose names come from the categories with that key. -/
def Gathered (root : Group) (cs : List (List String × String)) (theme : Fields Json) : Prop :=
  ∀ name value, theme.get? name = some value →
    ∃ fields : Fields Json, value = .obj fields ∧ fields.WellFormed ∧ ∀ key ∈ fields.names,
      ∃ category ∈ cs, category.2 = name ∧
        key ∈ Fields.names (categoryVariables root category.1)

/-- More categories make no difference to a theme in which everything comes from fewer. -/
theorem Gathered.mono {others : List (List String × String)} (h : Gathered root cs theme)
    (hsub : cs ⊆ others) : Gathered root others theme := by
  intro name value hvalue
  obtain ⟨fields, rfl, hfields, hkeys⟩ := h name value hvalue
  refine ⟨fields, rfl, hfields, fun key hkey => ?_⟩
  obtain ⟨category, hcategory, hname⟩ := hkeys key hkey
  exact ⟨category, hsub hcategory, hname⟩

/-- The names that a theme has under a theme key come from the categories with that key. What is put
in their place with more references adds the leaves of these. -/
theorem Gathered.exists_present (htheme : Gathered root cs theme) (name : String) :
    ∃ present : Fields Json, ((theme.get? name).bind Json.fields?).getD [] = present ∧
      present.WellFormed ∧
      (∀ key ∈ present.names, ∃ category ∈ cs, category.2 = name ∧
        key ∈ Fields.names (categoryVariables root category.1)) ∧
      ∀ references : Fields Json,
        (Json.fieldLeaves (theme.insert name (.obj (present ++ references)))).Perm
          (Json.fieldLeaves theme ++ Json.fieldLeaves references) := by
  cases hget : theme.get? name with
  | none =>
      refine ⟨[], rfl, List.nodup_nil, nofun, fun references => ?_⟩
      rw [Fields.insert_of_not_mem (Fields.get?_eq_none_iff.1 hget), Json.fieldLeaves_append]
      simp [Json.fieldLeaves, Json.leaves]
  | some value =>
      obtain ⟨present, rfl, hpresent, hkeys⟩ := htheme name value hget
      refine ⟨present, rfl, hpresent, hkeys, fun references => ?_⟩
      exact Json.fieldLeaves_insert_perm hget (Json.fieldLeaves_append present references)

/-- Putting one more category into a theme adds its references to those that are there. -/
theorem Gathered.addCategory {category : List String × String} (htheme : Gathered root cs theme)
    (hreferences : Fields.WellFormed (categoryVariables root category.1))
    (hapart : ∀ other ∈ cs, Apart root other category) :
    Gathered root (cs ++ [category]) (addCategory root theme category) ∧
      (Json.fieldLeaves (addCategory root theme category)).Perm
        (Json.fieldLeaves theme ++ Json.fieldLeaves (categoryVariables root category.1)) := by
  have hearlier : Gathered root (cs ++ [category]) theme :=
    htheme.mono (List.subset_append_left cs [category])
  unfold UtilityTheme.addCategory
  by_cases hempty : (categoryVariables root category.1).isEmpty = true
  · rw [if_pos hempty, List.isEmpty_iff.1 hempty]
    exact ⟨hearlier, .of_eq (List.append_nil _).symm⟩
  · rw [if_neg hempty]
    obtain ⟨present, hpresent, hwf, hkeys, hleaves⟩ := htheme.exists_present category.2
    have happend : (present ++ categoryVariables root category.1).WellFormed := by
      rw [Fields.wellFormed_iff, Fields.names_append]
      refine List.Nodup.append hwf hreferences fun key hkey hnew => ?_
      obtain ⟨other, hother, hname, hold⟩ := hkeys key hkey
      exact hapart other hother hname key hold hnew
    dsimp only
    rw [hpresent, Fields.insertAll_eq_append happend]
    refine ⟨fun name value hvalue => ?_, hleaves _⟩
    rw [Fields.get?_insert] at hvalue
    by_cases hname : name = category.2
    · rw [if_pos hname.symm] at hvalue
      cases hvalue
      refine ⟨_, rfl, happend, fun key hkey => ?_⟩
      rw [Fields.names_append, List.mem_append] at hkey
      rcases hkey with hkey | hkey
      · obtain ⟨other, hother, hsame, hold⟩ := hkeys key hkey
        exact ⟨other, List.mem_append_left _ hother, hsame.trans hname.symm, hold⟩
      · exact ⟨category, List.mem_append_right _ (List.mem_singleton_self _), hname.symm, hkey⟩
    · rw [if_neg (Ne.symm hname)] at hvalue
      exact hearlier name value hvalue

/-- A theme made from categories one after the other has the references of all of them, when those
that share a theme key give none under the same key. -/
theorem gathered_foldl
    (hreferences : ∀ category ∈ cs, Fields.WellFormed (categoryVariables root category.1))
    (hapart : cs.Pairwise (Apart root)) :
    Gathered root cs (cs.foldl (addCategory root) []) ∧
      (Json.fieldLeaves (cs.foldl (addCategory root) [])).Perm
        (cs.flatMap fun category => Json.fieldLeaves (categoryVariables root category.1)) := by
  -- Each category comes after those that are there, so the induction is from the last one.
  induction cs using List.reverseRecOn with
  | nil => exact ⟨nofun, List.Perm.refl _⟩
  | append_singleton cs category ih =>
      rw [List.pairwise_append] at hapart
      obtain ⟨hbefore, -, hlast⟩ := hapart
      obtain ⟨hgathered, hleaves⟩ := ih
        (fun other hother => hreferences other (List.mem_append_left _ hother)) hbefore
      obtain ⟨hnext, hmore⟩ := hgathered.addCategory
        (hreferences category (List.mem_append_right _ (List.mem_singleton_self _)))
        fun other hother => hlast other hother category (List.mem_singleton_self _)
      rw [List.foldl_append, List.flatMap_append, List.flatMap_singleton]
      exact ⟨hnext, hmore.trans (hleaves.append_right _)⟩

end UtilityTheme

/-! ## Steps and keys -/

namespace Step

variable {keys : List String} {steps : List Step}

/-- Keys that are not the color key begin the segments of steps only when these are steps into the
groups under them. -/
theorem map_child_prefix_of_segments (hcolor : colorKey ∉ keys)
    (h : keys <+: steps.map (segment .collapsed)) : keys.map .child <+: steps := by
  induction keys generalizing steps with
  | nil => exact List.nil_prefix
  | cons key keys ih =>
      rw [List.mem_cons, not_or] at hcolor
      cases steps with
      | nil => cases List.prefix_nil.1 h
      | cons step rest =>
          rw [List.map_cons, List.cons_prefix_cons] at h
          obtain ⟨hkey, hrest⟩ := h
          cases step with
          | theme variant => exact absurd hkey.symm hcolor.1
          | child name =>
              obtain rfl : key = name := hkey
              exact List.cons_prefix_cons.2 ⟨rfl, ih hcolor.2 hrest⟩

/-- Keys that are not the one of theme wrappers begin the keys of steps only when these are steps
into the groups under them. -/
theorem map_child_prefix_of_keys (htheme : themeKey ∉ keys)
    (h : keys <+: steps.flatMap Step.keys) : keys.map .child <+: steps := by
  induction keys generalizing steps with
  | nil => exact List.nil_prefix
  | cons key keys ih =>
      rw [List.mem_cons, not_or] at htheme
      cases steps with
      | nil => cases List.prefix_nil.1 h
      | cons step rest =>
          cases step with
          | theme variant =>
              obtain ⟨hkey, -⟩ := List.cons_prefix_cons.1 h
              exact absurd hkey.symm htheme.1
          | child name =>
              obtain ⟨rfl, hrest⟩ := List.cons_prefix_cons.1 h
              exact List.cons_prefix_cons.2 ⟨rfl, ih htheme.2 hrest⟩

end Step

/-! ## The sites of a category -/

/-- The steps to the site begin with the keys, as paths name them. -/
def Site.Within (keys : List String) (s : Site) : Prop :=
  keys <+: s.above.map (Step.segment .collapsed)

instance (keys : List String) (s : Site) : Decidable (s.Within keys) :=
  inferInstanceAs (Decidable (keys <+: s.above.map (Step.segment .collapsed)))

/-- The reference to the property that stylesheets declare for a site. -/
def Site.reference (s : Site) : Json :=
  .str (variableReference (s.path .collapsed ""))

namespace UtilityTheme

/-- The step of a walk to the colors of a theme: through the theme wrapper when the tree has no
colors of its own. -/
def colorStep (g : Group) : Step :=
  match g.group? themeKey, g.group? colorKey with
  | some ((variant, _) :: _), none => .theme variant
  | _, _ => .child colorKey

/-- The steps of a walk to the group of a category. -/
def stepsTo (g : Group) (keys : List String) : List Step :=
  if keys = [colorKey] then [colorStep g] else keys.map .child

/-- The tokens of a tree stand where its utility theme looks for them. -/
structure Fits (g : Group) : Prop where
  /-- A token that is not in a theme wrapper at the root is inside the group of a category. -/
  covered : ∀ l ∈ Group.leaves g, l.keys.head? ≠ some themeKey →
    ∃ category ∈ categories, category.1 <+: l.keys ∧ category.1 ≠ l.keys
  /-- There are no theme wrappers in categories. -/
  plain : ∀ category ∈ categories, ∀ h : Group, g.at? category.1 = some (.group h) →
    h.WithoutWrappers
  /-- There are no theme wrappers in the colors of a theme wrapper at the root. -/
  plainColors : ∀ variant (colors : Group), g.descend? (.theme variant) = some colors →
    colors.WithoutWrappers
  /-- The tree has no colors of its own next to those of a theme wrapper. -/
  oneColors : ∀ own variant colors, g.group? colorKey = some own →
    g.descend? (.theme variant) ≠ some colors
  /-- The two categories that share a theme key have no key in common. -/
  apart : ∀ h k, g.at? ["typography", "letterSpacing"] = some (.group h) →
    g.at? ["typography", "tracking"] = some (.group k) →
      ∀ key ∈ Fields.names h, key ∉ Fields.names k

variable {g root h : Group} {category : List String × String}

/-- The color group of the tree in which categories are looked up is where the color step leads, and
everything else is where it was. -/
theorem at?_categoryRoot (hroot : (categoryRoot g).result = .ok root) :
    root.group? colorKey = g.descend? (colorStep g) ∧
      ∀ key keys, key ≠ colorKey → root.at? (key :: keys) = g.at? (key :: keys) := by
  have hown : g.descend? (.child colorKey) = g.group? colorKey := by
    rw [Group.descend?, if_neg (by decide)]
  have hsame (hstep : colorStep g = .child colorKey) (hroot : root = g) :
      root.group? colorKey = g.descend? (colorStep g) ∧
        ∀ key keys, key ≠ colorKey → root.at? (key :: keys) = g.at? (key :: keys) := by
    rw [hstep, hown, hroot]
    exact ⟨rfl, fun _ _ _ => rfl⟩
  unfold categoryRoot at hroot
  cases hwrapper : g.group? themeKey with
  | none =>
      rw [hwrapper] at hroot
      exact hsame (by simp [colorStep, hwrapper]) (Except.ok.inj hroot).symm
  | some wrapper =>
      cases hcolor : g.group? colorKey with
      | some own =>
          rw [hwrapper, hcolor] at hroot
          exact hsame (by cases wrapper <;> simp [colorStep, hwrapper, hcolor])
            (Except.ok.inj hroot).symm
      | none =>
          rw [hwrapper, hcolor] at hroot
          cases wrapper with
          | nil => exact hsame (by simp [colorStep, hwrapper]) (Except.ok.inj hroot).symm
          | cons first others =>
              obtain ⟨variant, body⟩ := first
              obtain ⟨unwrapped, hunwrapped, hroot⟩ := Outcome.andThen_eq_ok_iff.1 hroot
              cases (Group.unwrapTheme_result variant body others).symm.trans hunwrapped
              have hstep : g.descend? (colorStep g) =
                  body.children?.bind fun inner => Group.group? inner colorKey := by
                simp [colorStep, Group.descend?, hwrapper, hcolor]
              rw [hstep]
              cases hcolors : body.children?.bind fun inner => Group.group? inner colorKey with
              | none =>
                  rw [hcolors] at hroot
                  cases hroot
                  exact ⟨hcolor, fun _ _ _ => rfl⟩
              | some colors =>
                  rw [hcolors] at hroot
                  cases hroot
                  refine ⟨?_, fun key keys hkey => ?_⟩
                  · rw [Group.group?_eq_some_iff, Group.child?, Group.add, Fields.get?_insert,
                      if_pos rfl]
                  · rw [Group.at?_eq, Group.at?_eq, Node.at?_group_cons, Node.at?_group_cons,
                      Group.add, Fields.get?_insert, if_neg (Ne.symm hkey)]

/-- A category is the colors or has no color key among its keys. -/
theorem category_eq_color_or (hcategory : category ∈ categories) :
    category.1 = [colorKey] ∨ colorKey ∉ category.1 := by
  revert category
  decide +kernel

theorem colorStep_cases (g : Group) :
    colorStep g = .child colorKey ∨ ∃ variant, colorStep g = .theme variant := by
  unfold colorStep
  split
  · exact Or.inr ⟨_, rfl⟩
  · exact Or.inl rfl

/-- The steps to a category are named by its keys. -/
theorem map_segment_stepsTo (g : Group) (keys : List String) :
    (stepsTo g keys).map (Step.segment .collapsed) = keys := by
  unfold stepsTo
  by_cases hkeys : keys = [colorKey]
  · rw [if_pos hkeys, hkeys, List.map_singleton]
    unfold colorStep
    split <;> rfl
  · rw [if_neg hkeys, List.map_map]
    exact List.map_id keys

/-- The steps to a category lead to the group that the category is. -/
theorem at?_categoryRoot_iff (hroot : (categoryRoot g).result = .ok root)
    (hcategory : category ∈ categories) :
    root.at? category.1 = some (.group h) ↔ g.follow? (stepsTo g category.1) = some h := by
  obtain ⟨hcolors, hothers⟩ := at?_categoryRoot hroot
  obtain ⟨-, hne, -, htheme⟩ := categories_cases hcategory
  unfold stepsTo
  rcases category_eq_color_or hcategory with hcolor | hcolor
  · rw [if_pos hcolor, hcolor, Group.follow?]
    simp only [Group.follow?, Option.bind_fun_some]
    rw [← hcolors, Group.group?_eq_some_iff, Group.at?_eq, Node.at?_group_cons]
    simp only [Node.at?_nil, Option.bind_fun_some]
    rfl
  · have hkeys : root.at? category.1 = g.at? category.1 := by
      cases hsplit : category.1 with
      | nil => exact absurd hsplit hne
      | cons key keys =>
          refine hothers key keys ?_
          rintro rfl
          exact hcolor (hsplit ▸ List.mem_cons_self)
    have hother : category.1 ≠ [colorKey] := by
      intro heq
      exact hcolor (heq ▸ List.mem_singleton_self _)
    rw [if_neg hother, hkeys]
    exact ⟨Group.follow?_map_child htheme, Group.at?_of_follow?_map_child⟩

/-- The steps to a site within a category begin with the steps to the category. -/
theorem Fits.stepsTo_prefix (hfits : Fits g) (hg : g.WellFormed) (hcategory : category ∈ categories)
    {s : Site} (hs : s ∈ g.sites) (hwithin : s.Within category.1) :
    stepsTo g category.1 <+: s.above := by
  unfold stepsTo
  rcases category_eq_color_or hcategory with hcolor | hcolor
  · rw [if_pos hcolor]
    obtain ⟨above, key, t⟩ := s
    unfold Site.Within at hwithin
    rw [hcolor] at hwithin
    cases above with
    | nil => cases List.prefix_nil.1 hwithin
    | cons step rest =>
        obtain ⟨hsegment, -⟩ := List.cons_prefix_cons.1 hwithin
        obtain ⟨h, hstep, -⟩ := (Group.mem_sites_under_iff hg (s := ⟨rest, key, t⟩)).1 hs
        -- The tree has colors of its own or in a theme wrapper, and not both.
        have heq : step = colorStep g := by
          cases step with
          | child name =>
              obtain rfl : colorKey = name := hsegment
              have hown := (Group.descend?_child_eq_some_iff.1 hstep).2
              unfold colorStep
              rw [hown]
              split
              · rename_i hnone
                cases hnone
              · rfl
          | theme variant =>
              obtain ⟨inner, others, hwrapper, -⟩ := Group.descend?_theme_eq_some_iff.1 hstep
              have hnone : g.group? colorKey = none := by
                rw [Option.eq_none_iff_forall_ne_some]
                intro own hown
                exact hfits.oneColors own variant h hown hstep
              rw [colorStep, hwrapper, hnone]
        rw [heq]
        exact List.cons_prefix_cons.2 ⟨rfl, List.nil_prefix⟩
  · have hother : category.1 ≠ [colorKey] := by
      intro heq
      exact hcolor (heq ▸ List.mem_singleton_self _)
    rw [if_neg hother]
    exact Step.map_child_prefix_of_segments hcolor hwithin

/-- There are no theme wrappers in the group that the steps to a category lead to. -/
theorem Fits.withoutWrappers (hfits : Fits g) (hcategory : category ∈ categories)
    (hsteps : g.follow? (stepsTo g category.1) = some h) : h.WithoutWrappers := by
  have hplain (heq : stepsTo g category.1 = category.1.map .child) : h.WithoutWrappers := by
    rw [heq] at hsteps
    exact hfits.plain category hcategory h (Group.at?_of_follow?_map_child hsteps)
  by_cases hcolor : category.1 = [colorKey]
  · rcases colorStep_cases g with hstep | ⟨variant, hstep⟩
    · refine hplain ?_
      rw [stepsTo, if_pos hcolor, hstep, hcolor]
      rfl
    · rw [stepsTo, if_pos hcolor, hstep, Group.follow?] at hsteps
      obtain ⟨colors, hcolors, hsteps⟩ := Option.bind_eq_some_iff.1 hsteps
      cases hsteps
      exact hfits.plainColors variant h hcolors
  · exact hplain (if_neg hcolor)

/-- The sites within a category are those of the leaves of its group that do not stand under the key
of theme wrappers. -/
theorem Fits.sites_perm (hfits : Fits g) (hg : g.WellFormed) (hcategory : category ∈ categories)
    (hsteps : g.follow? (stepsTo g category.1) = some h) :
    (g.sites.filter fun s => s.Within category.1).Perm
      ((Group.plainLeaves h).map (Leaf.site (stepsTo g category.1))) := by
  have hh : h.WellFormed := hg.follow? hsteps
  have hplain := hfits.withoutWrappers hcategory hsteps
  have hsites : (g.sites.filter fun s => s.Within category.1).Nodup :=
    (hg.nodup_places.of_map _).filter _
  have hleaves : ((Group.plainLeaves h).map (Leaf.site (stepsTo g category.1))).Nodup :=
    ((Group.nodup_leaves h hh).filter _).map (Leaf.site_injective _)
  refine (List.perm_ext_iff_of_nodup hsites hleaves).2 fun s => ?_
  rw [List.mem_filter, decide_eq_true_iff, List.mem_map]
  constructor
  · intro hwithin
    obtain ⟨hs, hwithin⟩ := hwithin
    obtain ⟨below, hbelow⟩ := hfits.stepsTo_prefix hg hcategory hs hwithin
    obtain ⟨above, key, t⟩ := s
    obtain rfl : stepsTo g category.1 ++ below = above := hbelow
    obtain ⟨_, heq, hr⟩ := (Group.mem_sites_append_iff hg).1 hs
    cases hsteps.symm.trans heq
    obtain ⟨l, hl, hkey, hsite⟩ := (hplain.mem_sites_iff hh).1 hr
    refine ⟨l, List.mem_filter.2 ⟨hl, decide_eq_true ?_⟩, ?_⟩
    · rw [Leaf.keys, List.mem_append, List.mem_singleton, not_or]
      exact ⟨hplain.not_mem_above hh hl, Ne.symm hkey⟩
    · cases hsite
      rfl
  · intro hleaf
    obtain ⟨l, hl, rfl⟩ := hleaf
    obtain ⟨hl, hkeys⟩ := List.mem_filter.1 hl
    refine ⟨Group.site_of_leaf hg hsteps hh hl (of_decide_eq_true hkeys), ?_⟩
    show category.1 <+: (stepsTo g category.1 ++ l.above.map Step.child).map
      (Step.segment .collapsed)
    rw [List.map_append, map_segment_stepsTo]
    exact List.prefix_append _ _

/-- A category without a group gives no references, and one with a group those of the group. -/
theorem categoryVariables_cases (root : Group) (keys : List String) :
    (∀ h, root.at? keys ≠ some (.group h)) ∧ categoryVariables root keys = [] ∨
      ∃ h, root.at? keys = some (.group h) ∧
        categoryVariables root keys = Group.variableTree ("-".intercalate keys) h := by
  unfold categoryVariables
  cases hat : (root.at? keys).bind Node.children? with
  | none =>
      refine Or.inl ⟨fun h hgroup => ?_, rfl⟩
      cases hat.symm.trans (Node.bind_children?_eq_some_iff.2 hgroup)
  | some h => exact Or.inr ⟨h, Node.bind_children?_eq_some_iff.1 hat, rfl⟩

/-- The references of a category have no key twice. -/
theorem wellFormed_categoryVariables (hg : g.WellFormed)
    (hroot : (categoryRoot g).result = .ok root) (hcategory : category ∈ categories) :
    Fields.WellFormed (categoryVariables root category.1) := by
  rcases categoryVariables_cases root category.1 with ⟨-, hnone⟩ | ⟨h, hat, hsome⟩
  · rw [hnone]
    exact List.nodup_nil
  · have hh : Group.WellFormed h := hg.follow? ((at?_categoryRoot_iff hroot hcategory).1 hat)
    rw [hsome]
    exact (Node.WellFormed.keys hh).sublist (Group.names_variableTree_sublist _ h)

/-- Categories that share a theme key give no references under the same key. -/
theorem Fits.pairwise_apart (hfits : Fits g) (hroot : (categoryRoot g).result = .ok root) :
    categories.Pairwise (Apart root) := by
  have hshared : categories.Pairwise fun category other => category.2 = other.2 →
      category.1 = ["typography", "letterSpacing"] ∧ other.1 = ["typography", "tracking"] := by
    decide +kernel
  refine hshared.imp fun {category other} hkeys hsame key hkey hother => ?_
  obtain ⟨hspacing, htracking⟩ := hkeys hsame
  have hat := (at?_categoryRoot hroot).2
  rw [hspacing] at hkey
  rw [htracking] at hother
  rcases categoryVariables_cases root ["typography", "letterSpacing"] with
    ⟨-, hnone⟩ | ⟨h, hh, hsome⟩
  · rw [hnone] at hkey
    cases hkey
  rcases categoryVariables_cases root ["typography", "tracking"] with ⟨-, hnone⟩ | ⟨k, hk, hsome'⟩
  · rw [hnone] at hother
    cases hother
  rw [hat "typography" _ (by decide)] at hh hk
  rw [hsome] at hkey
  rw [hsome'] at hother
  exact hfits.apart h k hh hk key ((Group.names_variableTree_sublist _ h).subset hkey)
    ((Group.names_variableTree_sublist _ k).subset hother)

/-- The references of a category are those to the sites within it. -/
theorem Fits.references_perm (hfits : Fits g) (hg : g.WellFormed)
    (hroot : (categoryRoot g).result = .ok root) (hcategory : category ∈ categories) :
    (Json.fieldLeaves (categoryVariables root category.1)).Perm
      ((g.sites.filter fun s => s.Within category.1).map Site.reference) := by
  obtain ⟨-, hne, hempty, -⟩ := categories_cases hcategory
  rcases categoryVariables_cases root category.1 with ⟨hgroup, hnone⟩ | ⟨h, hat, hsome⟩
  · have hsites : (g.sites.filter fun s => s.Within category.1) = [] := by
      refine List.filter_eq_nil_iff.2 fun s hs hwithin => ?_
      obtain ⟨below, hbelow⟩ := hfits.stepsTo_prefix hg hcategory hs (of_decide_eq_true hwithin)
      obtain ⟨above, key, t⟩ := s
      obtain rfl : stepsTo g category.1 ++ below = above := hbelow
      obtain ⟨h, hsteps, -⟩ := (Group.mem_sites_append_iff hg).1 hs
      exact hgroup h ((at?_categoryRoot_iff hroot hcategory).2 hsteps)
    rw [hnone, hsites]
    exact List.Perm.refl _
  · have hsteps := (at?_categoryRoot_iff hroot hcategory).1 hat
    have hpath : (stepsTo g category.1).foldl
        (fun path step => joinPath path (step.segment .collapsed)) "" =
          "-".intercalate category.1 := by
      rw [← List.foldl_map, map_segment_stepsTo]
      exact foldl_joinPath hne (Or.inr hempty)
    have hreferences : (Group.plainLeaves h).map (Leaf.asReference ("-".intercalate category.1)) =
        ((Group.plainLeaves h).map (Leaf.site (stepsTo g category.1))).map Site.reference := by
      rw [List.map_map]
      refine List.map_congr_left fun l _ => ?_
      show _ = Json.str (variableReference ((l.site _).path .collapsed ""))
      rw [Leaf.path_site, hpath]
      rfl
    rw [hsome, Group.leaves_variableTree, hreferences]
    exact ((hfits.sites_perm hg hcategory hsteps).symm).map _

/-- Every site is within a category. -/
theorem Fits.exists_category (hfits : Fits g) (hg : g.WellFormed) {s : Site} (hs : s ∈ g.sites) :
    ∃ category ∈ categories, s.Within category.1 := by
  by_cases habove : ∃ variant rest, s.above = .theme variant :: rest
  · -- The colors of a theme wrapper are named like a color group.
    obtain ⟨variant, rest, habove⟩ := habove
    refine ⟨([colorKey], "colors"), List.mem_cons_self, ?_⟩
    unfold Site.Within
    rw [habove]
    exact List.cons_prefix_cons.2 ⟨rfl, List.nil_prefix⟩
  · have hhead := Group.head?_keys_of_site hg hs fun variant rest heq =>
      habove ⟨variant, rest, heq⟩
    obtain ⟨category, hcategory, hprefix, hne⟩ :=
      hfits.covered _ (Group.leaf_of_site hg hs) hhead
    refine ⟨category, hcategory, ?_⟩
    obtain ⟨-, -, -, htheme⟩ := categories_cases hcategory
    have hbegin : category.1 <+: s.above.flatMap Step.keys :=
      (List.prefix_concat_iff.1 hprefix).resolve_left hne
    have hsegments := (Step.map_child_prefix_of_keys htheme hbegin).map (Step.segment .collapsed)
    rw [List.map_map] at hsegments
    exact (List.map_id category.1).symm ▸ hsegments

/-- The sites of a tree are those within its categories, each within one. -/
theorem Fits.categories_perm (hfits : Fits g) (hg : g.WellFormed) :
    (categories.flatMap fun category => g.sites.filter fun s => s.Within category.1).Perm
      g.sites := by
  have hsites : g.sites.Nodup := hg.nodup_places.of_map
  have hdisjoint : categories.Pairwise fun category other =>
      ¬ category.1 <+: other.1 ∧ ¬ other.1 <+: category.1 := by
    decide +kernel
  refine (List.perm_ext_iff_of_nodup ?_ hsites).2 fun s => ?_
  · refine List.nodup_flatMap.2 ⟨fun category _ => hsites.filter _, hdisjoint.imp ?_⟩
    intro category other hapart s hs hother
    have hwithin : category.1 <+: _ := of_decide_eq_true (List.mem_filter.1 hs).2
    have hwithinOther : other.1 <+: _ := of_decide_eq_true (List.mem_filter.1 hother).2
    rcases List.prefix_or_prefix_of_prefix hwithin hwithinOther with hprefix | hprefix
    · exact hapart.1 hprefix
    · exact hapart.2 hprefix
  · rw [List.mem_flatMap]
    constructor
    · intro hcategory
      obtain ⟨category, -, hs⟩ := hcategory
      exact (List.mem_filter.1 hs).1
    · intro hs
      obtain ⟨category, hcategory, hwithin⟩ := hfits.exists_category hg hs
      exact ⟨category, hcategory, List.mem_filter.2 ⟨hs, decide_eq_true hwithin⟩⟩

/-- The references of a theme are those to the sites of the tree. -/
theorem Fits.ofRoot_perm (hfits : Fits g) (hg : g.WellFormed)
    (hroot : (categoryRoot g).result = .ok root) :
    (Json.fieldLeaves (ofRoot root)).Perm (g.sites.map Site.reference) := by
  have hreferences : ∀ category ∈ categories,
      Fields.WellFormed (categoryVariables root category.1) :=
    fun category hcategory => wellFormed_categoryVariables hg hroot hcategory
  have hcategories := (gathered_foldl hreferences (hfits.pairwise_apart hroot)).2
  refine hcategories.trans (List.Perm.trans ?_ ((hfits.categories_perm hg).map Site.reference))
  rw [List.map_flatMap]
  exact List.Perm.flatMap_left _ fun category hcategory =>
    hfits.references_perm hg hroot hcategory

end UtilityTheme

theorem variableReference_injective : Function.Injective variableReference := by
  intro name other heq
  have hlists := congrArg String.toList heq
  simp only [variableReference, String.toList_append, List.append_cancel_right_eq,
    List.append_cancel_left_eq] at hlists
  exact String.toList_injective hlists

/-- Take a tree whose tokens stand where its utility theme looks for them and from which a
stylesheet can be made. Its utility theme can be made too, what is no object in it is the references
to the properties that the stylesheet declares, in some order, and each of them is there once. -/
theorem utilityTheme_covers {g : Group} (hg : g.WellFormed) (hfits : UtilityTheme.Fits g)
    {scope : Option Scope} {selector : Selector} {s : Stylesheet}
    (hs : (g.stylesheet selector scope).result = .ok s) :
    ∃ theme, g.utilityTheme.result = .ok theme ∧
      (Json.obj theme).leaves.Perm
        (s.declarations.map fun d => .str (variableReference d.name)) ∧
      (Json.obj theme).leaves.Nodup := by
  obtain ⟨root, hroot, -⟩ := UtilityTheme.exists_categoryRoot g
  obtain ⟨hnames, hnodup⟩ := Group.names_of_stylesheet hs
  have hreferences : g.sites.map Site.reference =
      s.declarations.map fun d => Json.str (variableReference d.name) := by
    have hread := congrArg (List.map fun name => Json.str (variableReference name)) hnames
    rw [List.map_map, List.map_map] at hread
    exact hread.symm
  have hperm := hfits.ofRoot_perm hg hroot
  rw [hreferences] at hperm
  refine ⟨_, Outcome.andThen_done_eq_ok_iff.2 ⟨root, hroot, rfl⟩, hperm, ?_⟩
  have hinjective : Function.Injective fun name => Json.str (variableReference name) :=
    fun _ _ heq => variableReference_injective (Json.str.inj heq)
  have hdeclared := hnodup.map hinjective
  rw [List.map_map] at hdeclared
  exact hperm.nodup_iff.2 hdeclared

/-! ## A tree with colors in a theme wrapper -/

namespace DarkSpacing

/-- A document with the colors of a theme variant, and tokens in three categories, two of which
share a theme key. -/
def document : Fields Json :=
  [("theme", .obj [("dark", .obj [("color", .obj
      [("ink", .obj [("value", .str "#111111"), ("type", .str "color")]),
       ("scale", .obj [("sky", .obj [("value", .str "#336699"), ("type", .str "color")])])])])]),
   ("spacing", .obj [("small", .obj [("value", .str "4px"), ("type", .str "dimension")])]),
   ("typography", .obj
      [("tracking", .obj [("wide", .obj [("value", .str "2px"), ("type", .str "dimension")])]),
       ("letterSpacing", .obj
          [("tight", .obj [("value", .str "1px"), ("type", .str "dimension")])])])]

/-- The tree of the document. -/
theorem tree_eq : Group.ofFields document =
    [("theme", .group [("dark", .group [("color", .group
        [("ink", .token ⟨.str "#111111", .str "color", .null, []⟩),
         ("scale", .group [("sky", .token ⟨.str "#336699", .str "color", .null, []⟩)])])])]),
     ("spacing", .group [("small", .token ⟨.str "4px", .str "dimension", .null, []⟩)]),
     ("typography", .group
        [("tracking", .group [("wide", .token ⟨.str "2px", .str "dimension", .null, []⟩)]),
         ("letterSpacing", .group
            [("tight", .token ⟨.str "1px", .str "dimension", .null, []⟩)])])] := rfl

theorem wellFormed : Group.WellFormed (Group.ofFields document) := by
  refine Group.wellFormed_ofFields ?_
  simp [document, Json.WellFormed, Json.FieldsWellFormed, Fields.WellFormed]

theorem fits : UtilityTheme.Fits (Group.ofFields document) := by
  rw [tree_eq]
  refine ⟨by decide +kernel, ?_, ?_, ?_, ?_⟩
  · intro category hcategory h hat
    simp only [UtilityTheme.categories, List.mem_cons, List.not_mem_nil, or_false] at hcategory
    rcases hcategory with rfl | rfl | rfl | rfl | rfl | rfl | rfl | rfl | rfl | rfl | rfl | rfl <;>
      cases hat <;>
      simp [Group.WithoutWrappers, Group.EveryChild, Node.EveryChild, Node.children?]
  · intro variant colors hcolors
    obtain ⟨inner, others, hwrapper, hinner⟩ := Group.descend?_theme_eq_some_iff.1 hcolors
    cases hwrapper
    cases hinner
    simp [Group.WithoutWrappers, Group.EveryChild, Node.EveryChild, Node.children?, themeKey]
  · intro own variant colors hown
    cases hown
  · intro h k hh hk
    cases hh
    cases hk
    decide

theorem stylesheet_eq : (Group.stylesheet .dark none (Group.ofFields document)).result =
    .ok ⟨.dark, [⟨"color-ink", "#111111"⟩, ⟨"color-scale-sky", "#336699"⟩,
      ⟨"spacing-small", "4px"⟩, ⟨"typography-tracking-wide", "2px"⟩,
      ⟨"typography-letterSpacing-tight", "1px"⟩]⟩ := rfl

end DarkSpacing

open DarkSpacing in
/-- The utility theme of that tree reads the five properties of its stylesheet once each. -/
theorem dark_spacing_covers :
    Group.WellFormed (Group.ofFields document) ∧ UtilityTheme.Fits (Group.ofFields document) ∧
      ∃ s, (Group.stylesheet .dark none (Group.ofFields document)).result = .ok s ∧
        ∃ theme, (Group.utilityTheme (Group.ofFields document)).result = .ok theme ∧
          (Json.obj theme).leaves.Perm
            (s.declarations.map fun d => .str (variableReference d.name)) ∧
          (Json.obj theme).leaves.Nodup :=
  ⟨wellFormed, fits, _, stylesheet_eq, utilityTheme_covers wellFormed fits stylesheet_eq⟩

end DesignTokens
