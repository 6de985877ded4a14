import DesignTokens.Proofs.Overlay.Superposition
import DesignTokens.Proofs.Tree.Values
import Mathlib.Data.List.Perm.Subperm

/-!
# Overlaying is overriding at the output

When layers have one shape and theme wrappers have no further variants, the tokens that a walk of
the merged tree reaches are those that walks of the two layers reach, with the values of the later
layer where both have one. The values of the merged tree are those of the earlier layer overridden
by those of the later one: `walk_mergeTrees_overrides`.
-/

namespace DesignTokens

/-- A tree that holds a group wherever another one does, and a node wherever the other one does, has
no further variants when that tree has none. -/
theorem Group.SingleVariants.of_groups {g h : Group} (hg : g.WellFormed) (hh : h.SingleVariants)
    (hnodes : ∀ keys, (g.at? keys).isSome → (h.at? keys).isSome)
    (hgroups : ∀ keys k, g.at? keys = some (.group k) → ∃ l, h.at? keys = some (.group l)) :
    g.SingleVariants := by
  intro keys variants hvariants
  -- The variants of the one wrapper are among those of the other, and none occurs twice.
  obtain ⟨others, hothers⟩ := hgroups _ _ hvariants
  have hsub : Fields.names variants ⊆ Fields.names others := by
    intro name hname
    obtain ⟨body, hbody⟩ := Fields.exists_get?_of_mem_names hname
    have hat {k : Group} (hk : k.at? (keys ++ [themeKey]) = some (.group variants)) :
        k.at? ((keys ++ [themeKey]) ++ [name]) = some body := by
      rw [Group.at?_eq, Node.at?_append, ← Group.at?_eq, hk, Option.bind_some, Node.at?_group_cons,
        hbody]
      exact Node.at?_nil body
    obtain ⟨node, hnode⟩ := Option.isSome_iff_exists.1
      (hnodes _ (Option.isSome_iff_exists.2 ⟨body, hat hvariants⟩))
    rw [Group.at?_eq, Node.at?_append, ← Group.at?_eq, hothers, Option.bind_some,
      Node.at?_group_cons] at hnode
    obtain ⟨child, hchild, -⟩ := Option.bind_eq_some_iff.1 hnode
    exact Fields.mem_names_of_get? hchild
  have hnodup := Fields.wellFormed_iff.1 (Node.WellFormed.of_at? hg hvariants).keys
  have hlength := (List.subperm_of_subset hnodup hsub).length_le
  rw [Fields.names, Fields.names, List.length_map, List.length_map] at hlength
  exact Nat.le_trans hlength (hh keys others hothers)

/-- A tree holds two layers: at every key path it holds what they do, and no theme wrapper has
further variants. -/
structure Group.HoldsLayers (lower upper merged : Group) : Prop where
  wellFormed_lower : lower.WellFormed
  wellFormed_upper : upper.WellFormed
  wellFormed : merged.WellFormed
  superposed : ∀ keys, Superposed (lower.at? keys) (upper.at? keys) (merged.at? keys)
  singleVariants : merged.SingleVariants

namespace Group.HoldsLayers

variable {lower upper merged : Group}

/-- The earlier layer has no further variants. -/
theorem singleVariants_lower (h : HoldsLayers lower upper merged) : lower.SingleVariants :=
  SingleVariants.of_groups h.wellFormed_lower h.singleVariants
    (fun keys hkeys => by rw [(h.superposed keys).isSome_eq, hkeys, Bool.true_or])
    fun keys _ hkeys => (hkeys ▸ h.superposed keys).group_of_lower

/-- The later layer has no further variants. -/
theorem singleVariants_upper (h : HoldsLayers lower upper merged) : upper.SingleVariants :=
  SingleVariants.of_groups h.wellFormed_upper h.singleVariants
    (fun keys hkeys => by rw [(h.superposed keys).isSome_eq, hkeys, Bool.or_true])
    fun keys _ hkeys => (hkeys ▸ h.superposed keys).group_of_upper

/-! ## Sites of the layers -/

/-- The sites of the earlier layer are the tokens that it holds outside wrappers. -/
theorem mem_lower_sites_iff (h : HoldsLayers lower upper merged) {s : Site} :
    s ∈ lower.sites ↔ s.AvoidsWrappers ∧ lower.at? s.keys = some (.token s.token) :=
  h.singleVariants_lower.mem_sites_iff_at? h.wellFormed_lower

/-- The sites of the later layer are the tokens that it holds outside wrappers. -/
theorem mem_upper_sites_iff (h : HoldsLayers lower upper merged) {s : Site} :
    s ∈ upper.sites ↔ s.AvoidsWrappers ∧ upper.at? s.keys = some (.token s.token) :=
  h.singleVariants_upper.mem_sites_iff_at? h.wellFormed_upper

/-- The sites of the tree are the tokens that it holds outside wrappers. -/
theorem mem_merged_sites_iff (h : HoldsLayers lower upper merged) {s : Site} :
    s ∈ merged.sites ↔ s.AvoidsWrappers ∧ merged.at? s.keys = some (.token s.token) :=
  h.singleVariants.mem_sites_iff_at? h.wellFormed

/-- Every site of the earlier layer is a site of the tree, perhaps with another token. -/
theorem exists_site_of_lower (h : HoldsLayers lower upper merged) {s : Site}
    (hs : s ∈ lower.sites) : ∃ r ∈ merged.sites, r.place = s.place := by
  obtain ⟨havoids, hat⟩ := h.mem_lower_sites_iff.1 hs
  obtain ⟨u, hu⟩ := (hat ▸ h.superposed s.keys).token_of_lower
  exact ⟨{ s with token := u }, h.mem_merged_sites_iff.2 ⟨havoids, hu⟩, rfl⟩

/-- Every site of the later layer is a site of the tree with the same value. -/
theorem exists_site_of_upper (h : HoldsLayers lower upper merged) {s : Site}
    (hs : s ∈ upper.sites) :
    ∃ r ∈ merged.sites, r.place = s.place ∧ r.token.value = s.token.value := by
  obtain ⟨havoids, hat⟩ := h.mem_upper_sites_iff.1 hs
  obtain ⟨u, hu, hvalue⟩ := (hat ▸ h.superposed s.keys).token_of_upper
  exact ⟨{ s with token := u }, h.mem_merged_sites_iff.2 ⟨havoids, hu⟩, rfl, hvalue⟩

/-- Every site of the tree has the value of a site of the later layer, or is one of the earlier
layer at a place where the later one has none. -/
theorem site_cases (h : HoldsLayers lower upper merged) {r : Site} (hr : r ∈ merged.sites) :
    (∃ s ∈ upper.sites, s.place = r.place ∧ s.token.value = r.token.value) ∨
      r ∈ lower.sites ∧ ∀ s ∈ upper.sites, s.place ≠ r.place := by
  obtain ⟨havoids, hat⟩ := h.mem_merged_sites_iff.1 hr
  obtain ⟨t, ht, hvalue⟩ | ⟨hnone, hlower⟩ := (hat ▸ h.superposed r.keys).token_cases
  · exact Or.inl ⟨{ r with token := t }, h.mem_upper_sites_iff.2 ⟨havoids, ht⟩, rfl, hvalue⟩
  · refine Or.inr ⟨h.mem_lower_sites_iff.2 ⟨havoids, hlower⟩, fun s hs hplace => ?_⟩
    have hkeys : s.keys = r.keys := Site.keys_eq_of_place_eq hplace
    have hsome := (h.mem_upper_sites_iff.1 hs).2
    rw [hkeys, hnone] at hsome
    cases hsome

/-! ## Walks of the layers -/

variable {style : PathStyle} {base : String} {es : List Entry}

/-- The walk of the earlier layer succeeds. -/
theorem walk_lower (h : HoldsLayers lower upper merged)
    (hwalk : (merged.walk style base).result = .ok es) :
    (lower.walk style base).result = .ok (lower.entries style base) :=
  walk_of_places h.wellFormed_lower (fun _ => h.exists_site_of_lower) hwalk

/-- The walk of the later layer succeeds. -/
theorem walk_upper (h : HoldsLayers lower upper merged)
    (hwalk : (merged.walk style base).result = .ok es) :
    (upper.walk style base).result = .ok (upper.entries style base) := by
  refine walk_of_places h.wellFormed_upper (fun s hs => ?_) hwalk
  obtain ⟨r, hr, hplace, -⟩ := h.exists_site_of_upper hs
  exact ⟨r, hr, hplace⟩

/-- Under every path the walk of the tree gives what the walk of the later layer does, or what that
of the earlier layer does where the later one gives nothing. -/
theorem get?_values (h : HoldsLayers lower upper merged)
    (hwalk : (merged.walk style base).result = .ok es) (path : String) :
    (Entry.values es).get? path =
      ((Entry.values (upper.entries style base)).get? path).or
        ((Entry.values (lower.entries style base)).get? path) := by
  have hlower := h.walk_lower hwalk
  have hupper := h.walk_upper hwalk
  refine Option.ext fun value => ?_
  rw [Option.or_eq_some_iff, get?_values_eq_some_iff hwalk, get?_values_eq_some_iff hupper,
    get?_values_eq_none_iff hupper, get?_values_eq_some_iff hlower]
  constructor
  · intro hsite
    obtain ⟨r, hr, rfl, rfl⟩ := hsite
    obtain ⟨s, hs, hplace, hvalue⟩ | ⟨hr', hfree⟩ := h.site_cases hr
    · exact Or.inl ⟨s, hs, Site.path_eq_of_place_eq hplace, hvalue⟩
    · -- A site of the later layer with this path would be at the same place, since the walk of
      -- the tree meets no path twice.
      refine Or.inr ⟨fun s hs hpath => ?_, r, hr', rfl, rfl⟩
      obtain ⟨q, hq, hplace, -⟩ := h.exists_site_of_upper hs
      have heq : q = r :=
        site_eq_of_path_eq hwalk hq hr ((Site.path_eq_of_place_eq hplace).trans hpath)
      exact hfree s hs (hplace.symm.trans (congrArg Site.place heq))
  · intro hsite
    rcases hsite with ⟨s, hs, rfl, rfl⟩ | ⟨hfree, s, hs, rfl, rfl⟩
    · obtain ⟨r, hr, hplace, hvalue⟩ := h.exists_site_of_upper hs
      exact ⟨r, hr, Site.path_eq_of_place_eq hplace, hvalue⟩
    · obtain ⟨r, hr, hplace⟩ := h.exists_site_of_lower hs
      have hpath : r.path style base = s.path style base := Site.path_eq_of_place_eq hplace
      obtain ⟨q, hq, hqplace, -⟩ | ⟨hr', -⟩ := h.site_cases hr
      · exact absurd ((Site.path_eq_of_place_eq hqplace).trans hpath) (hfree q hq)
      · exact ⟨r, hr, hpath, by rw [site_eq_of_path_eq hlower hr' hs hpath]⟩

end Group.HoldsLayers

/-- When two documents have one shape, complete no group of theirs to a token and have no further
variants between them, and the walk of the merged tree succeeds, the walks of both documents
succeed, and the values of the merged tree are those of the earlier document overridden by those of
the later one. -/
theorem walk_mergeTrees_overrides {lower upper : Fields Json} {style : PathStyle}
    {merged : List Entry} (hlower : (Json.obj lower).WellFormed)
    (hupper : (Json.obj upper).WellFormed)
    (hshape : (Node.group (Group.ofFields lower)).SameShape (.group (Group.ofFields upper)))
    (hgroups : (Node.group (Group.ofFields lower)).KeepsGroups (.group (Group.ofFields upper))
      (.group (mergeTrees [.document lower, .document upper])))
    (hvariants : (mergeTrees [.document lower, .document upper]).SingleVariants)
    (hwalk : ((mergeTrees [.document lower, .document upper]).walk style "").result = .ok merged) :
    ∃ earlier later,
      (Group.walk style "" (Group.ofFields lower)).result = .ok earlier ∧
        (Group.walk style "" (Group.ofFields upper)).result = .ok later ∧
        ∀ path, (Entry.values merged).get? path =
          ((Entry.values later).get? path).or ((Entry.values earlier).get? path) := by
  have hwf : Group.WellFormed (mergeTrees [.document lower, .document upper]) := by
    rw [mergeTrees_pair hlower.fields]
    exact Group.wellFormed_ofFields (wellFormed_overlay hlower hupper)
  have hlayers : Group.HoldsLayers (Group.ofFields lower) (Group.ofFields upper)
      (mergeTrees [.document lower, .document upper]) :=
    ⟨Group.wellFormed_ofFields hlower, Group.wellFormed_ofFields hupper, hwf,
      superposed_mergeTrees hlower hupper hshape hgroups, hvariants⟩
  exact ⟨_, _, hlayers.walk_lower hwalk, hlayers.walk_upper hwalk, hlayers.get?_values hwalk⟩

/-- A layer with two colors. -/
def Layer.twoColors : Fields Json :=
  [("color", .obj
    [("primary", .obj [("value", .str "#ffffff"), ("type", .str "color")]),
     ("ring", .obj [("value", .str "#333333"), ("type", .str "color")])])]

/-- A tree of colors only. -/
def Group.palette (colors : Fields Token) : Group :=
  [(colorKey, .group (colors.map fun color => (color.1, .token color.2)))]

/-- In a tree of colors the length of a key path tells the kind of the node there. -/
theorem Group.kind_of_at?_palette {colors : Fields Token} {keys : List String} {n : Node}
    (h : (Group.palette colors).at? keys = some n) :
    n.kind = if keys.length < 2 then .group else .token := by
  rw [Group.at?_eq] at h
  cases keys with
  | nil =>
      cases h
      rfl
  | cons first keys =>
      rw [palette, Node.at?_group_cons, Fields.get?_cons] at h
      split at h
      · cases keys with
        | nil =>
            cases h
            rfl
        | cons second keys =>
            rw [Option.bind_some, Node.at?_group_cons, Fields.get?_map (Node.token),
              Option.bind_map] at h
            obtain ⟨t, -, ht⟩ := Option.bind_eq_some_iff.1 h
            cases keys with
            | nil =>
                cases ht
                rfl
            | cons third keys => cases ht
      · cases h

/-- The color `primary` of a layer overrides that of a layer below it, which keeps its other
color. -/
theorem two_colors_overridden :
    (Json.obj Layer.twoColors).WellFormed ∧ (Json.obj Layer.primaryColor).WellFormed ∧
      (Node.group (Group.ofFields Layer.twoColors)).SameShape
        (.group (Group.ofFields Layer.primaryColor)) ∧
      (Node.group (Group.ofFields Layer.twoColors)).KeepsGroups
        (.group (Group.ofFields Layer.primaryColor))
        (.group (mergeTrees [.document Layer.twoColors, .document Layer.primaryColor])) ∧
      Group.SingleVariants (mergeTrees [.document Layer.twoColors, .document Layer.primaryColor]) ∧
      ∃ merged,
        ((mergeTrees [.document Layer.twoColors, .document Layer.primaryColor]).walk .collapsed
          "").result = .ok merged ∧
        ∃ earlier later,
          (Group.walk .collapsed "" (Group.ofFields Layer.twoColors)).result = .ok earlier ∧
            (Group.walk .collapsed "" (Group.ofFields Layer.primaryColor)).result = .ok later ∧
            ∀ path, (Entry.values merged).get? path =
              ((Entry.values later).get? path).or ((Entry.values earlier).get? path) := by
  have hlower : (Json.obj Layer.twoColors).WellFormed := by
    simp [Layer.twoColors, Json.WellFormed, Json.FieldsWellFormed, Fields.WellFormed]
  let primary : Token := ⟨.str "#00cc92", .str "color", .null, []⟩
  let ring : Token := ⟨.str "#333333", .str "color", .null, []⟩
  -- All three trees are palettes, where the length of a key path tells the kind of node.
  have hearlier : Group.ofFields Layer.twoColors =
      Group.palette [("primary", ⟨.str "#ffffff", .str "color", .null, []⟩), ("ring", ring)] := rfl
  have hlater : Group.ofFields Layer.primaryColor = Group.palette [("primary", primary)] := rfl
  have hmerged : mergeTrees [.document Layer.twoColors, .document Layer.primaryColor] =
      Group.palette [("primary", primary), ("ring", ring)] := rfl
  have hshape : (Node.group (Group.ofFields Layer.twoColors)).SameShape
      (.group (Group.ofFields Layer.primaryColor)) := by
    intro keys m n hm hn
    rw [Group.kind_of_at?_palette (hearlier ▸ hm), Group.kind_of_at?_palette (hlater ▸ hn)]
  have hgroups : (Node.group (Group.ofFields Layer.twoColors)).KeepsGroups
      (.group (Group.ofFields Layer.primaryColor))
      (.group (mergeTrees [.document Layer.twoColors, .document Layer.primaryColor])) := by
    intro keys g hg t ht
    have htoken := Group.kind_of_at?_palette (hmerged ▸ ht)
    have hgroup : Node.kind (.group g) = if keys.length < 2 then .group else .token := by
      rcases hg with hg | hg
      · exact Group.kind_of_at?_palette (hearlier ▸ hg)
      · exact Group.kind_of_at?_palette (hlater ▸ hg)
    cases hgroup.trans htoken.symm
  have hvariants : Group.SingleVariants
      (mergeTrees [.document Layer.twoColors, .document Layer.primaryColor]) := by
    intro keys variants hat
    rw [hmerged] at hat
    have hkind := Group.kind_of_at?_palette hat
    cases keys with
    | nil => cases hat
    | cons key keys =>
        rw [if_neg (by simp)] at hkind
        cases hkind
  have hwalk : ((mergeTrees [.document Layer.twoColors, .document Layer.primaryColor]).walk
      .collapsed "").result = .ok [⟨"color-primary", "primary",
        ⟨.str "#00cc92", .str "color", .null, []⟩⟩, ⟨"color-ring", "ring",
        ⟨.str "#333333", .str "color", .null, []⟩⟩] := by
    rfl
  exact ⟨hlower, Layer.wellFormed_primaryColor, hshape, hgroups, hvariants, _, hwalk,
    walk_mergeTrees_overrides hlower Layer.wellFormed_primaryColor hshape hgroups hvariants hwalk⟩

end DesignTokens
