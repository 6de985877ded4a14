import DesignTokens.Proofs.Tree.SiteLookup
import DesignTokens.Proofs.Tree.Walk

/-!
# The values that a walk gives to paths

The entries of a walk are a map from derived paths to values. When a walk succeeds, a path has a
value in it exactly when a site of that path holds it (`get?_values_eq_some_iff`). A walk of a tree
succeeds when its places are among those of a tree whose walk does: `walk_of_places`.
-/

namespace DesignTokens

/-- The path of a place below another path. -/
def placePath (style : PathStyle) (base : String) (place : List Step × String) : String :=
  joinPath (place.1.foldl (fun path step => joinPath path (step.segment style)) base) place.2

theorem Site.placePath_place (style : PathStyle) (base : String) (s : Site) :
    placePath style base s.place = s.path style base := rfl

/-- Sites at the same place have the same path. -/
theorem Site.path_eq_of_place_eq {style : PathStyle} {base : String} {r s : Site}
    (h : r.place = s.place) : r.path style base = s.path style base :=
  congrArg (placePath style base) h

/-- Sites at the same place are reached by the same keys. -/
theorem Site.keys_eq_of_place_eq {r s : Site} (h : r.place = s.place) : r.keys = s.keys :=
  congrArg (fun place => place.1.flatMap Step.keys ++ [place.2]) h

/-- The map from the paths of entries to their values. -/
def Entry.values (es : List Entry) : Fields Json :=
  es.map fun e => (e.path, e.token.value)

namespace Group

variable {style : PathStyle} {base : String} {g h : Group} {es : List Entry}

/-- When a walk succeeds, its entries are those of the sites, whose paths are distinct. -/
theorem nodup_site_paths (hwalk : (g.walk style base).result = .ok es) :
    es = g.sites.map (Site.entry style base) ∧ (g.sites.map (Site.path style base)).Nodup := by
  obtain ⟨rfl, hnodup⟩ := walk_eq_ok_iff.1 hwalk
  rw [entries_eq_map_sites] at hnodup ⊢
  rw [List.map_map] at hnodup
  exact ⟨rfl, hnodup⟩

/-- When a walk succeeds, sites of the same path are the same. -/
theorem site_eq_of_path_eq (hwalk : (g.walk style base).result = .ok es) {r s : Site}
    (hr : r ∈ g.sites) (hs : s ∈ g.sites) (hpath : r.path style base = s.path style base) : r = s :=
  List.inj_on_of_nodup_map (nodup_site_paths hwalk).2 hr hs hpath

/-- A path has a value exactly when a site of that path holds a token with it. -/
theorem get?_values_eq_some_iff (hwalk : (g.walk style base).result = .ok es) {path : String}
    {value : Json} :
    (Entry.values es).get? path = some value ↔
      ∃ s ∈ g.sites, s.path style base = path ∧ s.token.value = value := by
  obtain ⟨rfl, hnodup⟩ := nodup_site_paths hwalk
  have hvalues : Entry.values (g.sites.map (Site.entry style base)) =
      g.sites.map fun s => (s.path style base, s.token.value) := by
    rw [Entry.values, List.map_map]
    rfl
  have hwf : (Entry.values (g.sites.map (Site.entry style base))).WellFormed := by
    rw [hvalues, Fields.wellFormed_iff, Fields.names, List.map_map]
    exact hnodup
  rw [hwf.get?_eq_some_iff, hvalues, List.mem_map]
  simp only [Prod.mk.injEq]

/-- A path has no value exactly when no site has that path. -/
theorem get?_values_eq_none_iff (hwalk : (g.walk style base).result = .ok es) {path : String} :
    (Entry.values es).get? path = none ↔ ∀ s ∈ g.sites, s.path style base ≠ path := by
  rw [Option.eq_none_iff_forall_ne_some]
  constructor
  · intro h s hs hpath
    exact h _ ((get?_values_eq_some_iff hwalk).2 ⟨s, hs, hpath, rfl⟩)
  · intro h value hvalue
    obtain ⟨s, hs, hpath, -⟩ := (get?_values_eq_some_iff hwalk).1 hvalue
    exact h s hs hpath

/-- The walk of a well-formed tree succeeds when that of another tree which has all its places
does. -/
theorem walk_of_places (hg : g.WellFormed)
    (hplaces : ∀ s ∈ g.sites, ∃ r ∈ h.sites, r.place = s.place)
    (hwalk : (h.walk style base).result = .ok es) :
    (g.walk style base).result = .ok (g.entries style base) := by
  refine walk_eq_ok_iff.2 ⟨rfl, ?_⟩
  rw [entries_eq_map_sites, List.map_map,
    show Entry.path ∘ Site.entry style base = placePath style base ∘ Site.place from rfl,
    ← List.map_map]
  refine hg.nodup_places.map_on fun place hplace other hother hpath => ?_
  obtain ⟨s, hs, rfl⟩ := List.mem_map.1 hplace
  obtain ⟨s', hs', rfl⟩ := List.mem_map.1 hother
  obtain ⟨r, hr, hrs⟩ := hplaces s hs
  obtain ⟨r', hr', hrs'⟩ := hplaces s' hs'
  rw [← hrs, ← hrs', Site.placePath_place, Site.placePath_place] at hpath
  rw [← hrs, ← hrs', site_eq_of_path_eq hwalk hr hr' hpath]

end Group

end DesignTokens
