import DesignTokens.Proofs.Naming
import DesignTokens.Proofs.Tree.Leaves
import DesignTokens.Proofs.Tree.Reading
import DesignTokens.Proofs.Tree.Walk

/-!
# Keys without hyphens

In qualified naming the path of a token joins all keys that lead to it, those of theme wrappers and
their variants included: `Site.path_qualified`. The key of theme wrappers leads into a wrapper
wherever it occurs, so the keys tell which steps a walk took (`Site.place_eq_of_keys_eq`). When no
key has a hyphen the path tells the keys, and no two tokens have one path: `walk_of_plainKeys`.
-/

namespace DesignTokens

/-- In qualified naming a step adds the keys that it passes to a path. -/
theorem Step.foldl_keys (path : String) (step : Step) :
    step.keys.foldl joinPath path = joinPath path (step.segment .qualified) := by
  cases step with
  | child key => rfl
  | theme variant =>
      have htheme : themeKey ≠ "" := by decide
      have hwrapper : joinPath themeKey variant ≠ "" := joinPath_ne_empty (Or.inl htheme)
      calc (theme variant).keys.foldl joinPath path
          = joinPath (joinPath (joinPath path themeKey) variant) colorKey := rfl
        _ = joinPath path (joinPath (joinPath themeKey variant) colorKey) := by
            rw [joinPath_assoc htheme, joinPath_assoc hwrapper]
        _ = joinPath path ((theme variant).segment .qualified) := by
            rw [joinPath_of_ne hwrapper, joinPath_of_ne htheme]
            simp [segment, PathStyle.themeSegment, themeKey, colorKey, String.append_assoc]

namespace Site

/-- In qualified naming the path of a site joins the keys that lead to it. -/
theorem path_qualified (base : String) (s : Site) :
    s.path .qualified base = s.keys.foldl joinPath base := by
  have habove (path : String) (steps : List Step) :
      steps.foldl (fun path step => joinPath path (step.segment .qualified)) path =
        (steps.flatMap Step.keys).foldl joinPath path := by
    induction steps generalizing path with
    | nil => rfl
    | cons step rest ih =>
        rw [List.foldl_cons, ih, List.flatMap_cons, List.foldl_append, Step.foldl_keys]
  rw [path, habove, keys, List.foldl_append]
  rfl

/-- The place that keys lead a walk to: the key of theme wrappers begins a step through a variant,
and any other key but the last one is a step of its own. -/
def placeOfKeys : List String → List Step × String
  | [] => ([], "")
  | [key] => ([], key)
  | [name, key] => ([.child name], key)
  | name :: variant :: color :: below =>
    if name = themeKey then
      let place := placeOfKeys below
      (.theme variant :: place.1, place.2)
    else
      let place := placeOfKeys (variant :: color :: below)
      (.child name :: place.1, place.2)

/-- A key other than that of theme wrappers is a step of its own when keys follow it. -/
theorem placeOfKeys_cons {name : String} {below : List String} (hname : name ≠ themeKey)
    (hbelow : below ≠ []) :
    placeOfKeys (name :: below) =
      (.child name :: (placeOfKeys below).1, (placeOfKeys below).2) := by
  match below with
  | [key] => rfl
  | variant :: color :: rest => rw [placeOfKeys, if_neg hname]

/-- The keys of a site lead to its place. -/
theorem placeOfKeys_keys {s : Site} (hs : s.AvoidsWrappers) : placeOfKeys s.keys = s.place := by
  obtain ⟨above, key, t⟩ := s
  induction above with
  | nil => rfl
  | cons step above ih =>
      rw [show (⟨step :: above, key, t⟩ : Site) = under step ⟨above, key, t⟩ from rfl] at hs ⊢
      obtain ⟨hstep, hbelow⟩ := avoidsWrappers_under_iff.1 hs
      rw [keys_under]
      cases step with
      | child name =>
          have hname : name ≠ themeKey := fun heq => hstep (congrArg Step.child heq)
          rw [Step.keys, List.singleton_append, placeOfKeys_cons hname (keys_ne_nil _), ih hbelow]
          rfl
      | theme variant =>
          rw [Step.keys, List.cons_append, List.cons_append, List.singleton_append, placeOfKeys,
            if_pos rfl, ih hbelow]
          rfl

/-- Sites that are reached by the same keys are at the same place. -/
theorem place_eq_of_keys_eq {r s : Site} (hr : r.AvoidsWrappers) (hs : s.AvoidsWrappers)
    (h : r.keys = s.keys) : r.place = s.place := by
  rw [← placeOfKeys_keys hr, h, placeOfKeys_keys hs]

end Site

namespace Group

/-- Every key of the tree is plain, those of theme variants included. -/
def PlainKeys (g : Group) : Prop :=
  EveryChild (fun key _ => PlainKey key) g

variable {g : Group} {base : String}

/-- In a tree of plain keys, sites of one path are the same. -/
theorem PlainKeys.eq_of_path_eq (hkeys : g.PlainKeys) (hg : g.WellFormed) {r s : Site}
    (hr : r ∈ g.sites) (hs : s ∈ g.sites)
    (hpath : r.path .qualified base = s.path .qualified base) : r = s := by
  rw [Site.path_qualified, Site.path_qualified] at hpath
  have hsame : r.keys = s.keys := eq_of_foldl_joinPath_eq r.keys_ne_nil s.keys_ne_nil
    (hkeys.of_site_keys hg hr) (hkeys.of_site_keys hg hs) hpath
  exact List.inj_on_of_nodup_map hg.nodup_places hr hs
    (Site.place_eq_of_keys_eq (hg.avoidsWrappers hr) (hg.avoidsWrappers hs) hsame)

end Group

/-- In qualified naming, the walk of a tree whose keys are not empty and have no hyphens succeeds
below every path: no two of its tokens have the same path. -/
theorem walk_of_plainKeys {g : Group} (hg : g.WellFormed) (hkeys : g.PlainKeys) (base : String) :
    (g.walk .qualified base).result = .ok (g.entries .qualified base) ∧
      ((g.entries .qualified base).map Entry.path).Nodup := by
  have hpaths : ((g.entries .qualified base).map Entry.path).Nodup := by
    rw [Group.entries_eq_map_sites, List.map_map]
    exact List.Nodup.map_on (fun r hr s hs hpath => hkeys.eq_of_path_eq hg hr hs hpath)
      (hg.nodup_places.of_map _)
  exact ⟨Group.walk_eq_ok_iff.2 ⟨rfl, hpaths⟩, hpaths⟩

namespace NestedThemes

/-- A color of a document. -/
def ink : Json :=
  .obj [("value", .str "#111111"), ("type", .str "color")]

/-- A document in which a variant has the name of the wrapper, the colors of a variant have a wrapper
of their own, and plain groups repeat the names of variants. -/
def document : Fields Json :=
  [("theme", .obj [("theme", .obj [("color", .obj
      [("ink", ink), ("theme", .obj [("dark", .obj [("color", .obj [("ink", ink)])])])])])]),
   ("color", .obj [("ink", ink), ("dark", .obj [("color", .obj [("ink", ink)])])]),
   ("dark", .obj [("color", .obj [("ink", ink)]), ("ink", ink)])]

theorem wellFormed : Group.WellFormed (Group.ofFields document) := by
  refine Group.wellFormed_ofFields ?_
  simp [document, ink, Json.WellFormed, Json.FieldsWellFormed, Fields.WellFormed]

theorem plainKeys : Group.PlainKeys (Group.ofFields document) := by
  have hplain : PlainKey "theme" ∧ PlainKey "color" ∧ PlainKey "dark" ∧ PlainKey "ink" := by decide
  simp [document, ink, Group.PlainKeys, Group.ofFields, Node.ofJson, Token.ofFields?, Fields.get?,
    Token.valueText?, Json.str?, Group.EveryChild, Node.EveryChild, hplain]

/-- The paths of its colors below a path that looks like a wrapper. -/
theorem paths_eq : (Group.entries .qualified "theme-theme" (Group.ofFields document)).map
    Entry.path =
      ["theme-theme-theme-theme-color-theme-dark-color-ink", "theme-theme-theme-theme-color-ink",
       "theme-theme-color-ink", "theme-theme-color-dark-color-ink",
       "theme-theme-dark-color-ink", "theme-theme-dark-ink"] := rfl

end NestedThemes

open NestedThemes in
/-- The walk of that tree succeeds below the path of a wrapper and the name of a variant. -/
theorem nested_themes_walk :
    Group.WellFormed (Group.ofFields document) ∧ Group.PlainKeys (Group.ofFields document) ∧
      ∃ es, (Group.walk .qualified "theme-theme" (Group.ofFields document)).result = .ok es ∧
        (es.map Entry.path).Nodup ∧ "theme-theme-theme-theme-color-ink" ∈ es.map Entry.path := by
  obtain ⟨hwalk, hpaths⟩ := walk_of_plainKeys wellFormed plainKeys "theme-theme"
  refine ⟨wellFormed, plainKeys, _, hwalk, hpaths, ?_⟩
  rw [paths_eq]
  decide

end DesignTokens
