import DesignTokens.Proofs.Tree.Site
import DesignTokens.Proofs.Tree.Structure

/-!
# Which tokens a walk reaches

`descend?` follows one step of a walk and `follow?` several. In a well-formed tree the sites are
exactly the tokens at the end of such steps (`mem_sites_iff`), and each place is met once
(`nodup_places`). When every theme wrapper has at most one variant, the keys alone tell which tokens
are reached: `mem_sites_iff_at?`.
-/

namespace DesignTokens

/-- No step of the site goes below theme wrappers except through a variant, and its token does not
stand under their key. -/
def Site.AvoidsWrappers (s : Site) : Prop :=
  (∀ step ∈ s.above, step ≠ .child themeKey) ∧ s.key ≠ themeKey

/-- Some key leads to a site. -/
theorem Site.keys_ne_nil (s : Site) : s.keys ≠ [] := by
  simp [Site.keys]

@[simp] theorem Site.keys_under (step : Step) (s : Site) :
    (s.under step).keys = step.keys ++ s.keys := by
  simp [Site.keys, Site.under]

theorem Site.avoidsWrappers_under_iff {step : Step} {s : Site} :
    (s.under step).AvoidsWrappers ↔ step ≠ .child themeKey ∧ s.AvoidsWrappers := by
  simp [Site.AvoidsWrappers, Site.under, and_assoc]

/-- Only groups have sites. -/
theorem Node.mem_sites {node : Node} {s : Site} (hs : s ∈ node.sites) :
    ∃ g : Group, node = .group g ∧ s ∈ g.sites := by
  cases node with
  | token t => cases hs
  | raw x => cases hs
  | group g => exact ⟨g, rfl, hs⟩

/-- Only tokens have a site of their own. -/
theorem Node.mem_ownSite_iff {node : Node} {key : String} {s : Site} :
    s ∈ node.ownSite key ↔ ∃ t, node = .token t ∧ s = ⟨[], key, t⟩ := by
  cases node <;> simp [Node.ownSite]

namespace Group

/-- The group that a step of a walk leads to. Of a theme wrapper only the first variant is
entered. -/
def descend? (g : Group) : Step → Option Group
  | .child key => if key = themeKey then none else g.group? key
  | .theme variant =>
    match g.group? themeKey with
    | some ((first, body) :: _) =>
      if first = variant then body.children?.bind fun inner => group? inner colorKey else none
    | _ => none

/-- The group that the steps of a walk lead to. -/
def follow? : Group → List Step → Option Group
  | g, [] => some g
  | g, step :: steps => (g.descend? step).bind fun h => follow? h steps

variable {g h : Group}

theorem descend?_child_eq_some_iff {key : String} :
    g.descend? (.child key) = some h ↔ key ≠ themeKey ∧ g.group? key = some h := by
  unfold descend?
  by_cases hkey : key = themeKey <;> simp [hkey]

theorem descend?_theme_eq_some_iff {variant : String} :
    g.descend? (.theme variant) = some h ↔
      ∃ inner others, g.group? themeKey = some ((variant, .group inner) :: others) ∧
        group? inner colorKey = some h := by
  unfold descend?
  cases hwrapper : g.group? themeKey with
  | none => simp
  | some wrapper =>
      cases wrapper with
      | nil => simp
      | cons first others =>
          obtain ⟨name, body⟩ := first
          by_cases hname : name = variant
          · cases body <;> simp [hname, Node.children?]
          · simp [hname]

/-- A step leads from a well-formed group to a well-formed one. -/
theorem WellFormed.descend? {step : Step} (hg : g.WellFormed) (hstep : g.descend? step = some h) :
    h.WellFormed := by
  cases step with
  | child key => exact hg.group? (descend?_child_eq_some_iff.1 hstep).2
  | theme variant =>
      obtain ⟨inner, others, hwrapper, hinner⟩ := descend?_theme_eq_some_iff.1 hstep
      exact WellFormed.group? ((hg.group? hwrapper).child List.mem_cons_self) hinner

/-- A step leads to what stands at its keys. -/
theorem at?_keys_of_descend? {step : Step} (hstep : g.descend? step = some h) :
    g.at? step.keys = some (.group h) := by
  rw [at?_eq]
  cases step with
  | child key =>
      obtain ⟨-, hgroup⟩ := descend?_child_eq_some_iff.1 hstep
      rw [Step.keys, Node.at?_group_cons]
      exact Option.bind_eq_some_iff.2 ⟨_, group?_eq_some_iff.1 hgroup, Node.at?_nil _⟩
  | theme variant =>
      obtain ⟨inner, others, hwrapper, hinner⟩ := descend?_theme_eq_some_iff.1 hstep
      rw [Step.keys, Node.at?_group_cons]
      refine Option.bind_eq_some_iff.2 ⟨_, group?_eq_some_iff.1 hwrapper, ?_⟩
      rw [Node.at?_group_cons, Fields.get?_cons_self, Option.bind_some, Node.at?_group_cons]
      exact Option.bind_eq_some_iff.2 ⟨_, group?_eq_some_iff.1 hinner, Node.at?_nil _⟩

/-! ## The parts of a walk -/

/-- The sites in the color group among the children. -/
theorem mem_colorSites_iff {s : Site} :
    s ∈ colorSites g ↔ ∃ h, g.group? colorKey = some h ∧ s ∈ h.sites := by
  induction g with
  | nil => simp [colorSites, group?, child?]
  | cons field rest ih =>
      obtain ⟨key, node⟩ := field
      rw [colorSites]
      by_cases hkey : key = colorKey
      · subst hkey
        cases node <;> simp [group?, child?, Node.children?, Node.sites, sites]
      · rw [if_neg hkey, ih]
        simp [group?, child?, Fields.get?_cons_of_ne hkey]

/-- The sites in the theme wrapper among the children are those behind a theme step. -/
theorem mem_themeSites_iff {s : Site} :
    s ∈ themeSites g ↔
      ∃ variant h r, g.descend? (.theme variant) = some h ∧ r ∈ h.sites ∧
        r.under (.theme variant) = s := by
  have hwrapper : themeSites g = ((g.child? themeKey).map Node.wrapperSites).getD [] := by
    induction g with
    | nil => rfl
    | cons field rest ih =>
        obtain ⟨key, node⟩ := field
        rw [themeSites, child?]
        by_cases hkey : key = themeKey
        · simp [hkey]
        · rw [if_neg hkey, Fields.get?_cons_of_ne hkey, ih]
          rfl
  rw [hwrapper]
  simp only [descend?_theme_eq_some_iff, group?_eq_some_iff]
  cases hchild : g.child? themeKey with
  | none => simp
  | some node =>
      cases node with
      | token t => simp [Node.wrapperSites]
      | raw x => simp [Node.wrapperSites]
      | group variants =>
          cases variants with
          | nil => simp [Node.wrapperSites, firstSites]
          | cons first others =>
              obtain ⟨variant, body⟩ := first
              cases body with
              | token t => simp [Node.wrapperSites, firstSites, Node.bodySites]
              | raw x => simp [Node.wrapperSites, firstSites, Node.bodySites]
              | group inner =>
                  simp only [Option.map_some, Option.getD_some, Node.wrapperSites, firstSites,
                    Node.bodySites, List.mem_map, mem_colorSites_iff, group?_eq_some_iff]
                  constructor
                  · rintro ⟨r, ⟨h, hh, hr⟩, rfl⟩
                    exact ⟨variant, h, r, ⟨inner, others, rfl, hh⟩, hr, rfl⟩
                  · rintro ⟨_, h, r, ⟨_, _, heq, hh⟩, hr, rfl⟩
                    cases heq
                    exact ⟨r, ⟨h, hh, hr⟩, rfl⟩

/-- The sites of the other children: tokens of their own, and what is below groups. -/
theorem mem_restSites_iff {s : Site} :
    s ∈ restSites g ↔
      ∃ key node, (key, node) ∈ g ∧ key ≠ themeKey ∧
        (s ∈ node.ownSite key ∨ key ≠ colorKey ∧ ∃ r ∈ node.sites, r.under (.child key) = s) := by
  induction g with
  | nil => simp [restSites]
  | cons field rest ih =>
      obtain ⟨key, node⟩ := field
      rw [restSites, List.mem_append, ih]
      simp only [List.mem_cons, Prod.mk.injEq, or_and_right, exists_or, and_assoc]
      refine or_congr ?_ Iff.rfl
      by_cases htheme : key = themeKey
      · simp [htheme]
      · by_cases hcolor : key = colorKey <;> simp [htheme, hcolor]

/-- The sites of a group are those behind a theme wrapper, those in the color group, and the
rest. -/
theorem mem_sites_cases {s : Site} :
    s ∈ g.sites ↔
      s ∈ themeSites g ∨ (∃ r ∈ colorSites g, r.under (.child colorKey) = s) ∨ s ∈ restSites g := by
  unfold sites
  rw [Node.sites, List.mem_append, List.mem_append, List.mem_map]

/-- Of a group without groups, a walk reaches the children only. -/
theorem mem_of_site_of_tokens (hg : ∀ field ∈ g, ∃ t, field.2 = Node.token t)
    {s : Site} (hs : s ∈ g.sites) : (s.key, .token s.token) ∈ g := by
  have hgroup {key : String} {h : Group} (hchild : g.group? key = some h) : False := by
    obtain ⟨t, ht⟩ := hg _ (Fields.mem_of_get? (group?_eq_some_iff.1 hchild))
    cases ht
  rcases mem_sites_cases.1 hs with htheme | ⟨r, hcolor, -⟩ | hrest
  · obtain ⟨variant, h, r, hstep, -⟩ := mem_themeSites_iff.1 htheme
    obtain ⟨inner, others, hwrapper, -⟩ := descend?_theme_eq_some_iff.1 hstep
    exact (hgroup hwrapper).elim
  · obtain ⟨h, hchild, -⟩ := mem_colorSites_iff.1 hcolor
    exact (hgroup hchild).elim
  · obtain ⟨key, node, hmem, -, hown | ⟨-, r, hr, -⟩⟩ := mem_restSites_iff.1 hrest
    · obtain ⟨t, rfl, rfl⟩ := Node.mem_ownSite_iff.1 hown
      exact hmem
    · obtain ⟨t, ht⟩ := hg _ hmem
      rw [show node = .token t from ht] at hr
      cases hr

/-- What holds of all tokens of a tree holds of those that a walk reaches. -/
theorem EveryChild.of_site {P : Token → Prop} {s : Site}
    (hg : EveryChild (fun _ node => ∀ t, node = .token t → P t) g) (hs : s ∈ g.sites) :
    P s.token := by
  -- By induction on the number of steps, the first of which leads into a group of the tree.
  induction hsteps : s.above.length using Nat.strongRecOn generalizing g s with
  | _ n ih =>
      have hbelow {h : Group} {step : Step} {r : Site}
          (hh : EveryChild (fun _ node => ∀ t, node = .token t → P t) h) (hr : r ∈ h.sites)
          (hstep : r.under step = s) : P s.token := by
        subst hstep
        exact ih r.above.length (hsteps ▸ Nat.lt_succ_self _) (s := r) hh hr rfl
      rcases mem_sites_cases.1 hs with htheme | ⟨r, hcolor, hunder⟩ | hrest
      · obtain ⟨variant, h, r, hstep, hr, hunder⟩ := mem_themeSites_iff.1 htheme
        obtain ⟨inner, others, hwrapper, hinner⟩ := descend?_theme_eq_some_iff.1 hstep
        have hbody := (everyChild_iff.1 (hg.group? hwrapper) variant _ List.mem_cons_self).2
        exact hbelow (EveryChild.group? hbody hinner) hr hunder
      · obtain ⟨h, hchild, hr⟩ := mem_colorSites_iff.1 hcolor
        exact hbelow (hg.group? hchild) hr hunder
      · obtain ⟨key, node, hmem, -, hown | ⟨-, r, hr, hunder⟩⟩ := mem_restSites_iff.1 hrest
        · obtain ⟨t, rfl, rfl⟩ := Node.mem_ownSite_iff.1 hown
          exact (everyChild_iff.1 hg key _ hmem).1 t rfl
        · obtain ⟨h, rfl, hr⟩ := Node.mem_sites hr
          exact hbelow (everyChild_iff.1 hg key _ hmem).2 hr hunder

/-! ## Lookup -/

/-- Sites behind a step are equal exactly when the step and the sites behind it are. -/
theorem under_eq_under_iff {step step' : Step} {r s : Site} :
    r.under step = s.under step' ↔ step = step' ∧ r = s := by
  obtain ⟨_, _, _⟩ := r
  obtain ⟨_, _, _⟩ := s
  simp only [Site.under, Site.mk.injEq, List.cons.injEq]
  tauto

/-- No site behind a step stands in the group itself. -/
theorem under_ne_here {step : Step} {r : Site} {key : String} {t : Token} :
    r.under step ≠ ⟨[], key, t⟩ := by
  intro heq
  cases congrArg Site.above heq

/-- A token of a group itself is reached unless it stands under the key of theme wrappers. -/
theorem mem_sites_here_iff (hg : g.WellFormed) {key : String} {t : Token} :
    ⟨[], key, t⟩ ∈ g.sites ↔ key ≠ themeKey ∧ g.child? key = some (.token t) := by
  have hchild : g.child? key = some (.token t) ↔ (key, Node.token t) ∈ g :=
    Fields.WellFormed.get?_eq_some_iff (Node.WellFormed.keys hg)
  rw [mem_sites_cases, mem_themeSites_iff, mem_restSites_iff, hchild]
  constructor
  · intro hsite
    rcases hsite with ⟨variant, h, r, -, -, hr⟩ | ⟨r, -, hr⟩ |
      ⟨key', node, hmem, hkey, hown | ⟨-, r, -, hr⟩⟩
    · exact absurd hr under_ne_here
    · exact absurd hr under_ne_here
    · obtain ⟨u, rfl, hsite⟩ := Node.mem_ownSite_iff.1 hown
      cases hsite
      exact ⟨hkey, hmem⟩
    · exact absurd hr under_ne_here
  · intro hchild
    obtain ⟨hkey, hmem⟩ := hchild
    exact Or.inr (Or.inr ⟨key, .token t, hmem, hkey, Or.inl (Node.mem_ownSite_iff.2 ⟨t, rfl, rfl⟩)⟩)

/-- What is reached by a step is what is reached from where the step leads. -/
theorem mem_sites_under_iff (hg : g.WellFormed) {step : Step} {s : Site} :
    s.under step ∈ g.sites ↔ ∃ h, g.descend? step = some h ∧ s ∈ h.sites := by
  rw [mem_sites_cases, mem_themeSites_iff, mem_restSites_iff]
  constructor
  · rintro (⟨variant, h, r, hstep, hr, heq⟩ | ⟨r, hr, heq⟩ |
      ⟨key, node, hmem, hkey, hown | ⟨hcolor, r, hr, heq⟩⟩)
    · obtain ⟨rfl, rfl⟩ := under_eq_under_iff.1 heq
      exact ⟨h, hstep, hr⟩
    · obtain ⟨rfl, rfl⟩ := under_eq_under_iff.1 heq
      obtain ⟨h, hh, hr⟩ := mem_colorSites_iff.1 hr
      exact ⟨h, descend?_child_eq_some_iff.2 ⟨by decide, hh⟩, hr⟩
    · obtain ⟨t, -, hsite⟩ := Node.mem_ownSite_iff.1 hown
      exact absurd hsite under_ne_here
    · obtain ⟨rfl, rfl⟩ := under_eq_under_iff.1 heq
      obtain ⟨h, rfl, hr⟩ := Node.mem_sites hr
      have hchild : g.child? key = some (.group h) :=
        (Fields.WellFormed.get?_eq_some_iff (Node.WellFormed.keys hg)).2 hmem
      exact ⟨h, descend?_child_eq_some_iff.2 ⟨hkey, group?_eq_some_iff.2 hchild⟩, hr⟩
  · intro hreached
    obtain ⟨h, hstep, hs⟩ := hreached
    cases step with
    | theme variant => exact Or.inl ⟨variant, h, s, hstep, hs, rfl⟩
    | child key =>
        obtain ⟨hkey, hh⟩ := descend?_child_eq_some_iff.1 hstep
        by_cases hcolor : key = colorKey
        · subst hcolor
          exact Or.inr (Or.inl ⟨s, mem_colorSites_iff.2 ⟨h, hh, hs⟩, rfl⟩)
        · exact Or.inr (Or.inr ⟨key, .group h, Fields.mem_of_get? (group?_eq_some_iff.1 hh), hkey,
            Or.inr ⟨hcolor, s, hs, rfl⟩⟩)

/-- A walk reaches a token at the end of steps exactly when the group that they lead to holds it
under a key that is not the one of theme wrappers. -/
theorem mem_sites_iff (hg : g.WellFormed) {s : Site} :
    s ∈ g.sites ↔
      ∃ h, g.follow? s.above = some h ∧ s.key ≠ themeKey ∧
        h.child? s.key = some (.token s.token) := by
  obtain ⟨above, key, t⟩ := s
  induction above generalizing g with
  | nil =>
      rw [mem_sites_here_iff hg]
      simp [follow?]
  | cons step above ih =>
      rw [show (⟨step :: above, key, t⟩ : Site) = Site.under step ⟨above, key, t⟩ from rfl,
        mem_sites_under_iff hg]
      constructor
      · intro hsite
        obtain ⟨h, hstep, hs⟩ := hsite
        obtain ⟨k, hk, hkey, hchild⟩ := (ih (hg.descend? hstep)).1 hs
        exact ⟨k, Option.bind_eq_some_iff.2 ⟨h, hstep, hk⟩, hkey, hchild⟩
      · intro hreached
        obtain ⟨k, hk, hkey, hchild⟩ := hreached
        obtain ⟨h, hstep, hk⟩ := Option.bind_eq_some_iff.1 hk
        exact ⟨h, hstep, (ih (hg.descend? hstep)).2 ⟨k, hk, hkey, hchild⟩⟩

/-- A walk passes the key of theme wrappers on its way through a variant only. -/
theorem WellFormed.avoidsWrappers (hg : g.WellFormed) {s : Site} (hs : s ∈ g.sites) :
    s.AvoidsWrappers := by
  obtain ⟨above, key, t⟩ := s
  induction above generalizing g with
  | nil =>
      obtain ⟨-, -, hkey, -⟩ := (mem_sites_iff hg).1 hs
      exact ⟨fun _ hstep => absurd hstep List.not_mem_nil, hkey⟩
  | cons step above ih =>
      obtain ⟨h, hstep, hbelow⟩ := (mem_sites_under_iff hg (s := ⟨above, key, t⟩)).1 hs
      refine Site.avoidsWrappers_under_iff.2 ⟨?_, ih (hg.descend? hstep) hbelow⟩
      rintro rfl
      exact (descend?_child_eq_some_iff.1 hstep).1 rfl

end Group

/-! ## Every place is met once -/

/-- Sites at distinct places are at distinct places seen from one step further up. -/
theorem Site.nodup_places_under {sites : List Site} (step : Step)
    (h : (sites.map Site.place).Nodup) : ((sites.map (Site.under step)).map Site.place).Nodup := by
  rw [List.map_map, show Site.place ∘ Site.under step =
    (fun place => (step :: place.1, place.2)) ∘ Site.place from rfl, ← List.map_map]
  refine h.map ?_
  rintro ⟨above, key⟩ ⟨above', key'⟩ heq
  simpa using heq

/-- The places in two lists of sites are distinct when they are in each list and no site of the one
is at a place of the other. -/
theorem Site.nodup_places_append {sites others : List Site} (hsites : (sites.map Site.place).Nodup)
    (hothers : (others.map Site.place).Nodup)
    (hdisjoint : ∀ s ∈ sites, ∀ r ∈ others, s.place ≠ r.place) :
    ((sites ++ others).map Site.place).Nodup := by
  rw [List.map_append, List.nodup_append]
  refine ⟨hsites, hothers, ?_⟩
  simpa only [List.forall_mem_map] using hdisjoint

/-- What a node holds as its own is at most one site. -/
theorem Node.nodup_ownSite (node : Node) (key : String) :
    ((node.ownSite key).map Site.place).Nodup := by
  cases node <;> simp [Node.ownSite]

/-- A site among the other children stands under the key of a child or behind the step to it. -/
theorem Group.place_of_mem_restSites {g : Group} {s : Site} (hs : s ∈ restSites g) :
    ∃ key ∈ Fields.names g, key ≠ themeKey ∧
      (s.place = ([], key) ∨
        key ≠ colorKey ∧ ∃ above below, s.place = (.child key :: above, below)) := by
  obtain ⟨key, node, hmem, hkey, hown | ⟨hcolor, r, -, rfl⟩⟩ := mem_restSites_iff.1 hs
  · obtain ⟨t, -, rfl⟩ := Node.mem_ownSite_iff.1 hown
    exact ⟨key, List.mem_map_of_mem hmem, hkey, Or.inl rfl⟩
  · exact ⟨key, List.mem_map_of_mem hmem, hkey, Or.inr ⟨hcolor, _, _, rfl⟩⟩

mutual

theorem Node.nodup_sites : (node : Node) → node.WellFormed → (node.sites.map Site.place).Nodup
  | .token _, _ | .raw _, _ => List.nodup_nil
  | .group g, hg => by
      rw [Node.sites]
      -- The three parts of a walk begin with different steps.
      refine Site.nodup_places_append (Group.nodup_themeSites g hg)
        (Site.nodup_places_append (Site.nodup_places_under _ (Group.nodup_colorSites g hg))
          (Group.nodup_restSites g hg) ?_) ?_
      · intro s hs r hr heq
        obtain ⟨s, -, rfl⟩ := List.mem_map.1 hs
        obtain ⟨key, -, -, hplace | ⟨hcolor, above, below, hplace⟩⟩ :=
          Group.place_of_mem_restSites hr
        · cases heq.trans hplace
        · cases heq.trans hplace
          exact hcolor rfl
      · intro s hs r hr heq
        obtain ⟨variant, h, s, -, -, rfl⟩ := Group.mem_themeSites_iff.1 hs
        rcases List.mem_append.1 hr with hr | hr
        · obtain ⟨r, -, rfl⟩ := List.mem_map.1 hr
          cases heq
        · obtain ⟨key, -, -, hplace | ⟨-, above, below, hplace⟩⟩ := Group.place_of_mem_restSites hr
          · cases heq.trans hplace
          · cases heq.trans hplace

theorem Group.nodup_themeSites : (g : List (String × Node)) → (Node.group g).WellFormed →
    ((Group.themeSites g).map Site.place).Nodup
  | [], _ => List.nodup_nil
  | (key, node) :: rest, hg => by
      rw [Group.themeSites]
      split
      · exact Node.nodup_wrapperSites node (hg.child List.mem_cons_self)
      · exact Group.nodup_themeSites rest hg.tail

theorem Node.nodup_wrapperSites : (node : Node) → node.WellFormed →
    (node.wrapperSites.map Site.place).Nodup
  | .token _, _ | .raw _, _ => List.nodup_nil
  | .group variants, hg => Group.nodup_firstSites variants hg

theorem Group.nodup_firstSites : (variants : List (String × Node)) →
    (Node.group variants).WellFormed → ((Group.firstSites variants).map Site.place).Nodup
  | [], _ => List.nodup_nil
  | (variant, body) :: _, hg =>
      Site.nodup_places_under (.theme variant)
        (Node.nodup_bodySites body (hg.child List.mem_cons_self))

theorem Node.nodup_bodySites : (node : Node) → node.WellFormed →
    (node.bodySites.map Site.place).Nodup
  | .token _, _ | .raw _, _ => List.nodup_nil
  | .group g, hg => Group.nodup_colorSites g hg

theorem Group.nodup_colorSites : (g : List (String × Node)) → (Node.group g).WellFormed →
    ((Group.colorSites g).map Site.place).Nodup
  | [], _ => List.nodup_nil
  | (key, node) :: rest, hg => by
      rw [Group.colorSites]
      split
      · exact Node.nodup_sites node (hg.child List.mem_cons_self)
      · exact Group.nodup_colorSites rest hg.tail

theorem Group.nodup_restSites : (g : List (String × Node)) → (Node.group g).WellFormed →
    ((Group.restSites g).map Site.place).Nodup
  | [], _ => List.nodup_nil
  | (key, node) :: rest, hg => by
      have hrest := Group.nodup_restSites rest hg.tail
      rw [Group.restSites]
      by_cases htheme : key = themeKey
      · rwa [if_pos htheme]
      · rw [if_neg htheme, List.append_assoc]
        have hsub : ((if key = colorKey then [] else
            node.sites.map (Site.under (.child key))).map Site.place).Nodup := by
          split
          · exact List.nodup_nil
          · exact Site.nodup_places_under _ (Node.nodup_sites node (hg.child List.mem_cons_self))
        -- What comes later stands under another key or begins with the step to one.
        have hfresh : key ∉ Fields.names rest := (Fields.wellFormed_cons.1 hg.keys).1
        refine Site.nodup_places_append (Node.nodup_ownSite node key)
          (Site.nodup_places_append hsub hrest ?_) ?_
        · intro s hs r hr heq
          split at hs
          · cases hs
          · obtain ⟨s, -, rfl⟩ := List.mem_map.1 hs
            obtain ⟨other, hother, -, hplace | ⟨-, above, below, hplace⟩⟩ :=
              Group.place_of_mem_restSites hr
            · cases heq.trans hplace
            · cases heq.trans hplace
              exact hfresh hother
        · intro s hs r hr heq
          obtain ⟨t, -, rfl⟩ := Node.mem_ownSite_iff.1 hs
          rcases List.mem_append.1 hr with hr | hr
          · split at hr
            · cases hr
            · obtain ⟨r, -, rfl⟩ := List.mem_map.1 hr
              cases heq
          · obtain ⟨other, hother, -, hplace | ⟨-, above, below, hplace⟩⟩ :=
              Group.place_of_mem_restSites hr
            · cases heq.trans hplace
              exact hfresh hother
            · cases heq.trans hplace

end

namespace Group

variable {g h : Group}

/-- A walk meets every place of a well-formed tree once. -/
theorem WellFormed.nodup_places (hg : g.WellFormed) : (g.sites.map Site.place).Nodup :=
  Node.nodup_sites (.group g) hg

/-! ## Trees without further variants -/

/-- Every theme wrapper in the tree has at most one variant. -/
def SingleVariants (g : Group) : Prop :=
  ∀ keys variants, g.at? (keys ++ [themeKey]) = some (.group variants) → variants.length ≤ 1

/-- A theme wrapper of a tree without further variants holds one variant when it holds any. -/
theorem SingleVariants.wrapper (hg : g.SingleVariants) {variants : Group} {key : String}
    {body : Node} (hwrapper : g.group? themeKey = some variants)
    (hvariant : variants.child? key = some body) : variants = [(key, body)] := by
  have hat : g.at? [themeKey] = some (.group variants) := by
    rw [at?_eq, Node.at?_group_cons]
    exact Option.bind_eq_some_iff.2 ⟨_, group?_eq_some_iff.1 hwrapper, Node.at?_nil _⟩
  have hlength : variants.length ≤ 1 := hg [] variants hat
  have hmem : (key, body) ∈ variants := Fields.mem_of_get? hvariant
  match variants, hlength, hmem with
  | [field], _, hmem => rw [List.mem_singleton.1 hmem]

/-- In a tree without further variants the keys of a step lead to where the step leads. -/
theorem SingleVariants.descend?_eq_some_iff (hg : g.SingleVariants) {step : Step}
    (hstep : step ≠ .child themeKey) :
    g.descend? step = some h ↔ g.at? step.keys = some (.group h) := by
  refine ⟨at?_keys_of_descend?, fun hat => ?_⟩
  rw [at?_eq] at hat
  cases step with
  | child key =>
      rw [Step.keys, Node.at?_group_cons] at hat
      have hkey : key ≠ themeKey := fun heq => hstep (congrArg Step.child heq)
      simp only [Node.at?_nil, Option.bind_fun_some] at hat
      exact descend?_child_eq_some_iff.2 ⟨hkey, group?_eq_some_iff.2 hat⟩
  | theme variant =>
      rw [Step.keys, Node.at?_group_cons] at hat
      obtain ⟨wrapper, hwrapper, hat⟩ := Option.bind_eq_some_iff.1 hat
      cases wrapper with
      | token t => cases hat
      | raw x => cases hat
      | group variants =>
          rw [Node.at?_group_cons, Option.bind_eq_some_iff] at hat
          obtain ⟨body, hbody, hat⟩ := hat
          cases body with
          | token t => cases hat
          | raw x => cases hat
          | group inner =>
              rw [Node.at?_group_cons, Option.bind_eq_some_iff] at hat
              obtain ⟨node, hnode, hat⟩ := hat
              rw [Node.at?_nil, Option.some.injEq] at hat
              subst hat
              have hgroup : g.group? themeKey = some variants := group?_eq_some_iff.2 hwrapper
              exact descend?_theme_eq_some_iff.2
                ⟨inner, [], hg.wrapper hgroup hbody ▸ hgroup, group?_eq_some_iff.2 hnode⟩

/-- Below a tree without further variants there are none either. -/
theorem SingleVariants.of_at? (hg : g.SingleVariants) {keys : List String}
    (hat : g.at? keys = some (.group h)) : h.SingleVariants := by
  intro below variants hbelow
  refine hg (keys ++ below) variants ?_
  rw [at?_eq, List.append_assoc, Node.at?_append, ← at?_eq, hat]
  exact hbelow

/-- In a tree without further variants the keys of a site tell whether a walk reaches it. -/
theorem SingleVariants.mem_sites_iff_at? (hvariants : g.SingleVariants) (hg : g.WellFormed)
    {s : Site} :
    s ∈ g.sites ↔ s.AvoidsWrappers ∧ g.at? s.keys = some (.token s.token) := by
  -- By induction on the steps: below a tree without further variants there are none either.
  obtain ⟨above, key, t⟩ := s
  induction above generalizing g with
  | nil =>
      rw [mem_sites_here_iff hg, at?_eq, Site.keys, List.flatMap_nil, List.nil_append,
        Node.at?_group_cons]
      simp only [Node.at?_nil, Option.bind_fun_some, Site.AvoidsWrappers, List.not_mem_nil,
        IsEmpty.forall_iff, implies_true, true_and]
      rfl
  | cons step above ih =>
      rw [show (⟨step :: above, key, t⟩ : Site) = Site.under step ⟨above, key, t⟩ from rfl,
        mem_sites_under_iff hg, Site.keys_under, Site.avoidsWrappers_under_iff, at?_eq,
        Node.at?_append, ← at?_eq, and_assoc]
      constructor
      · intro hsite
        obtain ⟨h, hstep, hs⟩ := hsite
        have hne : step ≠ .child themeKey := by
          rintro rfl
          exact (descend?_child_eq_some_iff.1 hstep).1 rfl
        have hat := (hvariants.descend?_eq_some_iff hne).1 hstep
        obtain ⟨hreach, htoken⟩ := (ih (hvariants.of_at? hat) (hg.descend? hstep)).1 hs
        exact ⟨hne, hreach, Option.bind_eq_some_iff.2 ⟨_, hat, htoken⟩⟩
      · intro htoken
        obtain ⟨hne, hreach, htoken⟩ := htoken
        obtain ⟨node, hat, htoken⟩ := Option.bind_eq_some_iff.1 htoken
        cases node with
        | token u =>
            rw [Node.at?_of_children?_eq_none rfl (Site.keys_ne_nil _)] at htoken
            cases htoken
        | raw x =>
            rw [Node.at?_of_children?_eq_none rfl (Site.keys_ne_nil _)] at htoken
            cases htoken
        | group h =>
            have hstep := (hvariants.descend?_eq_some_iff hne).2 hat
            exact ⟨h, hstep, (ih (hvariants.of_at? hat) (hg.descend? hstep)).2 ⟨hreach, htoken⟩⟩

end Group

end DesignTokens
