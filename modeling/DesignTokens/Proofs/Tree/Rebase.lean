import DesignTokens.Proofs.Naming
import DesignTokens.Proofs.Tree.Coverage
import DesignTokens.Proofs.Tree.Site
import DesignTokens.Proofs.Tree.Walk

/-!
# Walks below another path

The path of a site extends the path below which the walk starts by a tail that does not depend on
it: `Site.path_eq_joinPath`. So a walk succeeds below one path exactly when it does below another
one: when the tails of its sites are distinct (`walk_of_nodup_tails`, `walk_of_not_nodup_tails`).
In a tree without empty keys the tails are the paths of the walk from the root. So what a walk below
a path gives is what the walk from the root gives with that path in front: `walk_below`.
-/

namespace DesignTokens

/-- A step over keys that are not empty adds a segment that is not empty. -/
theorem Step.segment_ne_empty {step : Step} (h : "" ∉ step.keys) (style : PathStyle) :
    step.segment style ≠ "" := by
  cases step with
  | child key => exact fun hkey => h (List.mem_singleton.2 hkey.symm)
  | theme variant =>
      cases style with
      | collapsed => simp [segment, PathStyle.themeSegment, colorKey]
      | qualified => simp [segment, PathStyle.themeSegment]

namespace Site

variable {style : PathStyle} {base : String}

/-- The segments of the steps to a site, and its key. -/
def segments (style : PathStyle) (s : Site) : List String :=
  s.above.map (Step.segment style) ++ [s.key]

/-- The path of a site seen from where the walk starts. -/
def tail (style : PathStyle) (s : Site) : String :=
  "-".intercalate (s.segments style)

/-- The path of a site is its tail below the path where the walk starts. Only a walk from the root
shows whether a segment is empty. -/
theorem path_eq_joinPath {s : Site} (h : base ≠ "" ∨ "" ∉ s.segments style) :
    s.path style base = joinPath base (s.tail style) := by
  have hjoined : s.path style base = (s.segments style).foldl joinPath base := by
    rw [segments, List.foldl_append, List.foldl_map]
    rfl
  have hsegments : s.segments style ≠ [] :=
    List.append_ne_nil_of_right_ne_nil _ (List.cons_ne_nil _ _)
  rw [hjoined, foldl_joinPath hsegments h]
  rfl

/-- The segments of a site are not empty when its keys are not. -/
theorem not_mem_segments {s : Site} (h : "" ∉ s.keys) : "" ∉ s.segments style := by
  rw [keys, List.mem_append, not_or] at h
  obtain ⟨habove, hkey⟩ := h
  rw [segments, List.mem_append, not_or]
  refine ⟨fun hmem => ?_, hkey⟩
  obtain ⟨step, hstep, hsegment⟩ := List.mem_map.1 hmem
  refine Step.segment_ne_empty (fun hempty => habove ?_) style hsegment
  exact List.mem_flatMap.2 ⟨step, hstep, hempty⟩

end Site

/-- A path with another one and a hyphen in front. -/
def pathBelow (base path : String) : String :=
  base ++ "-" ++ path

theorem pathBelow_injective (base : String) : Function.Injective (pathBelow base) := by
  intro path other heq
  simpa [pathBelow] using heq

/-- The entry with another path and a hyphen in front of its own path. -/
def Entry.below (base : String) (e : Entry) : Entry :=
  { e with path := pathBelow base e.path }

theorem Entry.map_path_below (base : String) (entries : List Entry) :
    (entries.map (Entry.below base)).map Entry.path =
      (entries.map Entry.path).map (pathBelow base) := by
  rw [List.map_map, List.map_map]
  rfl

/-- The entry of a site below a path is its entry from the root with this path in front, when its
keys are not empty. -/
theorem Site.entry_below {style : PathStyle} {base : String} {s : Site} (hbase : base ≠ "")
    (hkeys : "" ∉ s.keys) : s.entry style base = (s.entry style "").below base := by
  have hroot : s.path style "" = s.tail style :=
    path_eq_joinPath (Or.inr (not_mem_segments hkeys))
  have hpath : s.path style base = base ++ "-" ++ s.path style "" := by
    rw [path_eq_joinPath (Or.inl hbase), joinPath_of_ne hbase, hroot]
  rw [entry, hpath]
  rfl

namespace Group

variable {style : PathStyle} {base : String} {g : Group}

/-- The paths of a walk are distinct exactly when the tails of its sites are. -/
theorem nodup_paths_iff (hbase : base ≠ "") :
    ((g.entries style base).map Entry.path).Nodup ↔ (g.sites.map (Site.tail style)).Nodup := by
  have hpaths : (g.entries style base).map Entry.path =
      (g.sites.map (Site.tail style)).map (joinPath base) := by
    rw [entries_eq_map_sites, List.map_map, List.map_map]
    exact List.map_congr_left fun s _ => Site.path_eq_joinPath (Or.inl hbase)
  rw [hpaths]
  exact List.nodup_map_iff (joinPath_injective base)

/-- Below any path, a walk reaches the sites of the group when their tails are distinct. -/
theorem walk_of_nodup_tails (hbase : base ≠ "") (htails : (g.sites.map (Site.tail style)).Nodup) :
    (g.walk style base).result = .ok (g.sites.map (Site.entry style base)) := by
  rw [← entries_eq_map_sites]
  exact walk_eq_ok_iff.2 ⟨rfl, (nodup_paths_iff hbase).2 htails⟩

/-- Below any path, a walk reports a duplicate when two sites of the group have the same tail. -/
theorem walk_of_not_nodup_tails (hbase : base ≠ "")
    (htails : ¬ (g.sites.map (Site.tail style)).Nodup) :
    ∃ path, (g.walk style base).result = .error (.duplicatePath path) := by
  cases hwalk : (g.walk style base).result with
  | error e =>
      obtain ⟨path, rfl⟩ := walk_eq_error hwalk
      exact ⟨path, rfl⟩
  | ok es =>
      obtain ⟨rfl, hpaths⟩ := walk_eq_ok_iff.1 hwalk
      exact absurd ((nodup_paths_iff hbase).1 hpaths) htails

/-- In a tree without empty keys a walk below a path derives the entries of the walk from the root
with this path in front. -/
theorem WithoutEmptyKeys.entries_below (hkeys : g.WithoutEmptyKeys) (hg : g.WellFormed)
    (hbase : base ≠ "") :
    g.entries style base = (g.entries style "").map (Entry.below base) := by
  rw [entries_eq_map_sites, entries_eq_map_sites, List.map_map]
  refine List.map_congr_left fun s hs => Site.entry_below hbase fun hempty => ?_
  exact EveryChild.of_site_keys hkeys hg hs "" hempty rfl

/-- In such a tree a walk below a path succeeds exactly when the walk from the root does. -/
theorem WithoutEmptyKeys.walk_below_eq_ok_iff (hkeys : g.WithoutEmptyKeys) (hg : g.WellFormed)
    (hbase : base ≠ "") {es : List Entry} :
    (g.walk style base).result = .ok es ↔
      ∃ plain, (g.walk style "").result = .ok plain ∧ es = plain.map (Entry.below base) := by
  rw [walk_eq_ok_iff, hkeys.entries_below hg hbase]
  constructor
  · intro hwalk
    obtain ⟨rfl, hnodup⟩ := hwalk
    rw [Entry.map_path_below, List.nodup_map_iff (pathBelow_injective base)] at hnodup
    exact ⟨_, walk_eq_ok_iff.2 ⟨rfl, hnodup⟩, rfl⟩
  · intro hwalk
    obtain ⟨plain, hplain, rfl⟩ := hwalk
    obtain ⟨rfl, hnodup⟩ := walk_eq_ok_iff.1 hplain
    rw [Entry.map_path_below, List.nodup_map_iff (pathBelow_injective base)]
    exact ⟨rfl, hnodup⟩

/-- In such a tree a walk below a path fails exactly when the walk from the root does, at the same
entry. -/
theorem WithoutEmptyKeys.walk_below_eq_error_iff (hkeys : g.WithoutEmptyKeys) (hg : g.WellFormed)
    (hbase : base ≠ "") {e : Error} :
    (g.walk style base).result = .error e ↔
      ∃ path, (g.walk style "").result = .error (.duplicatePath path) ∧
        e = .duplicatePath (pathBelow base path) := by
  rw [walk_eq_error_iff, hkeys.entries_below hg hbase, Entry.map_path_below]
  simp only [FirstRepeated.map_iff (pathBelow_injective base)]
  constructor
  · intro hwalk
    obtain ⟨_, ⟨path, hpath, rfl⟩, rfl⟩ := hwalk
    exact ⟨path, walk_eq_error_iff.2 ⟨path, hpath, rfl⟩, rfl⟩
  · intro hwalk
    obtain ⟨path, hplain, rfl⟩ := hwalk
    obtain ⟨_, hpath, heq⟩ := walk_eq_error_iff.1 hplain
    cases heq
    exact ⟨_, ⟨path, hpath, rfl⟩, rfl⟩

end Group

/-- In a tree without empty keys, a walk below a path succeeds exactly when the walk from the root
does. Its entries are then those of the walk from the root in the same order, with the same keys and
tokens, and with the path and a hyphen in front of their paths. When one walk fails, so does the
other, and their errors name the same entry. -/
theorem walk_below {g : Group} (hg : g.WellFormed) (hkeys : g.WithoutEmptyKeys) {base : String}
    (hbase : base ≠ "") (style : PathStyle) :
    (∀ es, (g.walk style base).result = .ok es ↔
      ∃ plain, (g.walk style "").result = .ok plain ∧ es = plain.map (Entry.below base)) ∧
    (∀ e, (g.walk style base).result = .error e ↔
      ∃ path, (g.walk style "").result = .error (.duplicatePath path) ∧
        e = .duplicatePath (base ++ "-" ++ path)) :=
  ⟨fun _ => hkeys.walk_below_eq_ok_iff hg hbase, fun _ => hkeys.walk_below_eq_error_iff hg hbase⟩

/-- An empty key adds a hyphen to a path and nothing to the root. -/
example :
    let g : Group := [("", .group [("ink", .token ⟨.str "#111111", .str "color", .null, []⟩)])]
    (g.entries .collapsed "").map Entry.path = ["ink"] ∧
      (g.entries .collapsed "app").map Entry.path = ["app--ink"] :=
  ⟨rfl, rfl⟩

namespace InkTwice

/-- A document with a color of a theme variant and one of the same name beside the wrapper. -/
def document : Fields Json :=
  [("spacing", .obj [("small", .obj [("value", .str "4px"), ("type", .str "dimension")])]),
   ("color", .obj [("ink", .obj [("value", .str "#eeeeee"), ("type", .str "color")])]),
   ("theme", .obj
      [("dark", .obj [("color", .obj
          [("ink", .obj [("value", .str "#111111"), ("type", .str "color")])])]),
       ("light", .obj [])])]

theorem wellFormed : Group.WellFormed (Group.ofFields document) := by
  refine Group.wellFormed_ofFields ?_
  simp [document, Json.WellFormed, Json.FieldsWellFormed, Fields.WellFormed]

theorem withoutEmptyKeys : Group.WithoutEmptyKeys (Group.ofFields document) := by
  simp [document, Group.ofFields, Node.ofJson, Token.ofFields?, Fields.get?, Token.valueText?,
    Json.str?, Group.WithoutEmptyKeys, Group.EveryChild, Node.EveryChild]

/-- The entries of the walk from the root in qualified naming. -/
def entries : List Entry :=
  [⟨"theme-dark-color-ink", "ink", ⟨.str "#111111", .str "color", .null, []⟩⟩,
   ⟨"color-ink", "ink", ⟨.str "#eeeeee", .str "color", .null, []⟩⟩,
   ⟨"spacing-small", "small", ⟨.str "4px", .str "dimension", .null, []⟩⟩]

theorem walk_qualified : (Group.walk .qualified "" (Group.ofFields document)).result =
    .ok entries := rfl

theorem walk_collapsed : (Group.walk .collapsed "" (Group.ofFields document)).result =
    .error (.duplicatePath "color-ink") := rfl

end InkTwice

open InkTwice in
/-- Below a path the walk of that tree succeeds in qualified naming and fails in collapsed naming,
as it does from the root. -/
theorem ink_twice_below_path :
    Group.WellFormed (Group.ofFields document) ∧ Group.WithoutEmptyKeys (Group.ofFields document) ∧
      "app-a" ≠ "" ∧
      (Group.walk .qualified "app-a" (Group.ofFields document)).result =
        .ok (entries.map (Entry.below "app-a")) ∧
      (Group.walk .collapsed "app-a" (Group.ofFields document)).result =
        .error (.duplicatePath "app-a-color-ink") := by
  have hbase : "app-a" ≠ "" := by decide
  have hqualified := walk_below wellFormed withoutEmptyKeys hbase .qualified
  have hcollapsed := walk_below wellFormed withoutEmptyKeys hbase .collapsed
  exact ⟨wellFormed, withoutEmptyKeys, hbase, (hqualified.1 _).2 ⟨_, walk_qualified, rfl⟩,
    (hcollapsed.2 _).2 ⟨_, walk_collapsed, rfl⟩⟩

end DesignTokens
