import DesignTokens.Proofs.Target.Agreement
import DesignTokens.Proofs.Target.FlatStylesheet
import DesignTokens.Proofs.Tree.Coverage

/-!
# Qualified and collapsed naming

The two namings give names to the same tokens. Where both walks of a tree succeed, their entries are
the same tokens in the same order, and a collapsed path has the color key for each segment of a theme
wrapper. So flat stylesheets that keep every token have the values of stylesheets, in the same order.
Without theme wrappers there is nothing to collapse: `namings_agree`.
-/

namespace DesignTokens

/-! ## The same tokens under two paths -/

/-- The step with the color key in place of the segment of a theme wrapper. -/
def Step.collapse : Step → Step
  | .child key => .child key
  | .theme _ => .child colorKey

/-- In collapsed naming a step adds the segment that is left of it. -/
theorem Step.segment_collapse (step : Step) :
    step.collapse.segment .qualified = step.segment .collapsed := by
  cases step <;> rfl

/-- The site with the color key in place of the segments of theme wrappers. -/
def Site.collapse (s : Site) : Site :=
  { s with above := s.above.map Step.collapse }

/-- A path in collapsed naming is the one in qualified naming with the color key in place of the
segments of theme wrappers. -/
theorem Site.entry_collapse (base : String) (s : Site) :
    s.collapse.entry .qualified base = s.entry .collapsed base := by
  have hpath : s.collapse.path .qualified base = s.path .collapsed base := by
    simp only [path, collapse, List.foldl_map, Step.segment_collapse]
  rw [entry, entry, hpath]
  rfl

/-- The entries are one token of the tree, to which steps lead from the base path. The path of the
second one has the color key for each segment of a theme wrapper that these steps add to the path of
the first one. -/
structure Group.SameToken (g : Group) (base : String) (e f : Entry) : Prop where
  key : e.key = f.key
  token : e.token = f.token
  site : ∃ s : Site, (∃ h, g.follow? s.above = some h ∧ h.child? s.key = some (.token s.token)) ∧
    e = s.entry .qualified base ∧ f = s.collapse.entry .qualified base

/-- The entries of a tree in the two namings are the same tokens in the same order. -/
theorem Group.WellFormed.sameToken_entries {g : Group} (hg : g.WellFormed) (base : String) :
    List.Forall₂ (g.SameToken base) (g.entries .qualified base) (g.entries .collapsed base) := by
  rw [entries_eq_map_sites, entries_eq_map_sites, List.forall₂_map_left_iff,
    List.forall₂_map_right_iff, List.forall₂_same]
  intro s hs
  obtain ⟨h, habove, -, hchild⟩ := (mem_sites_iff hg).1 hs
  exact ⟨rfl, rfl, s, ⟨h, habove, hchild⟩, rfl, (s.entry_collapse base).symm⟩

/-! ## The same values in stylesheets -/

/-- The values that a stylesheet declares, in order. -/
def Stylesheet.values (s : Stylesheet) : List String :=
  s.declarations.map Declaration.value

/-- A table that keeps every token declares all values. -/
theorem AliasTable.values_declare {table : AliasTable} (htable : table.strict = false)
    (rs : List (Entry × Json)) :
    ∃ ds, (table.declare rs).result = .ok ds ∧
      ds.map Declaration.value = rs.map fun r => r.2.display := by
  refine ⟨_, table.declare_result rs, ?_⟩
  have hname (e : Entry) : ∃ name, table.name? e = some name := by
    rw [name?, htable]
    cases table.names.get? e.path with
    | none => exact ⟨e.key, rfl⟩
    | some name => exact ⟨name, rfl⟩
  induction rs with
  | nil => rfl
  | cons r rest ih =>
      obtain ⟨name, hr⟩ := hname r.1
      rw [List.filterMap_cons, hr, Option.map_some, List.map_cons, List.map_cons, ih]

namespace Group

variable {g : Group} {scope : Option Scope}

/-- The values of resolved tokens, as they stand in stylesheets. -/
def resolvedValues (style : PathStyle) (scope : Option Scope) (g : Group) :
    Except Error (List String) :=
  (g.resolved style scope).result.map fun rs => rs.map fun r => r.2.display

/-- A stylesheet declares the values of the resolved tokens. -/
theorem values_stylesheet (selector : Selector) (scope : Option Scope) (g : Group) :
    (g.stylesheet selector scope).result.map Stylesheet.values =
      g.resolvedValues .collapsed scope := by
  rw [stylesheet, declarations, resolvedValues, Outcome.andThen_result, Outcome.andThen_result]
  cases (g.resolved .collapsed scope).result with
  | error e => rfl
  | ok rs => exact congrArg Except.ok List.map_map

/-- A flat stylesheet that keeps every token declares the values of the resolved tokens. -/
theorem values_flatStylesheet {selector : Selector} {table : Option AliasTable}
    (htable : (table.getD (.ofSelector selector)).strict = false) :
    (g.flatStylesheet selector scope table).result.map Stylesheet.values =
      g.resolvedValues .qualified scope := by
  rw [flatStylesheet, flatDeclarations, resolvedValues, Outcome.andThen_result,
    Outcome.andThen_result]
  cases (g.resolved .qualified scope).result with
  | error e => rfl
  | ok rs =>
      obtain ⟨ds, hds, hvalues⟩ := AliasTable.values_declare htable rs
      simp only [Except.bind, hds]
      exact congrArg Except.ok hvalues

/-- Where both walks succeed, the values of resolved tokens do not depend on the naming. -/
theorem resolvedValues_eq {es fs : List Entry} (hes : (g.walk .qualified "").result = .ok es)
    (hfs : (g.walk .collapsed "").result = .ok fs) :
    g.resolvedValues .qualified scope = g.resolvedValues .collapsed scope := by
  have hvalues {style : PathStyle} {es : List Entry} (hes : (g.walk style "").result = .ok es) :
      g.resolvedValues style scope =
        (g.sites.findSome? fun s => mismatch? scope s.token.value).elim
          (.ok (g.sites.map fun s => (denoted scope s.token.value).display)) .error := by
    obtain ⟨rfl, -⟩ := walk_eq_ok_iff.1 hes
    rw [resolvedValues, resolved_of_walk hes, resolveAll_result, entries_eq_map_sites,
      List.findSome?_map]
    simp only [Function.comp_def, Site.entry]
    cases g.sites.findSome? fun s => mismatch? scope s.token.value with
    | some error => rfl
    | none => simp [Except.map, Function.comp_def, Site.entry]
  rw [hvalues hes, hvalues hfs]

end Group

/-! ## Trees without theme wrappers -/

/-- The node is no theme wrapper: it is no group, or it does not stand under their key. -/
def NoWrapper (key : String) (node : Node) : Prop :=
  key = themeKey → node.children? = none

/-- A walk enters no wrapper among children of which none is one. -/
theorem Group.themeVisits_of_noWrapper {style : PathStyle} {path : String} {g : Group}
    (hg : Group.EveryChild NoWrapper g) : Group.themeVisits style path g = [] := by
  induction g with
  | nil => rfl
  | cons field rest ih =>
      obtain ⟨key, node⟩ := field
      obtain ⟨hnode, -, hrest⟩ := hg
      rw [Group.themeVisits]
      by_cases hkey : key = themeKey
      · rw [if_pos hkey]
        cases node with
        | token t => rfl
        | raw x => rfl
        | group variants => cases hnode hkey
      · rw [if_neg hkey, ih hrest]

mutual

/-- Below a node without theme wrappers a walk meets the same in both namings. -/
theorem Node.visits_of_noWrapper (path : String) : (node : Node) → node.EveryChild NoWrapper →
    node.visits .qualified path = node.visits .collapsed path
  | .token _, _ | .raw _, _ => rfl
  | .group children, h => by
      rw [Node.visits, Node.visits, Group.themeVisits_of_noWrapper h,
        Group.themeVisits_of_noWrapper h, Group.colorVisits_of_noWrapper _ children h,
        Group.restVisits_of_noWrapper path children h]

theorem Group.colorVisits_of_noWrapper (path : String) : (children : List (String × Node)) →
    Group.EveryChild NoWrapper children →
      Group.colorVisits .qualified path children = Group.colorVisits .collapsed path children
  | [], _ => rfl
  | (key, node) :: rest, h => by
      obtain ⟨-, hnode, hrest⟩ := h
      rw [Group.colorVisits, Group.colorVisits, Node.visits_of_noWrapper path node hnode,
        Group.colorVisits_of_noWrapper path rest hrest]

theorem Group.restVisits_of_noWrapper (path : String) : (children : List (String × Node)) →
    Group.EveryChild NoWrapper children →
      Group.restVisits .qualified path children = Group.restVisits .collapsed path children
  | [], _ => rfl
  | (key, node) :: rest, h => by
      obtain ⟨-, hnode, hrest⟩ := h
      rw [Group.restVisits, Group.restVisits, Node.visits_of_noWrapper _ node hnode,
        Group.restVisits_of_noWrapper path rest hrest]

end

/-- The two namings describe the same tokens. Where both walks of a tree succeed below a path, their
entries agree position by position in key and token, and the collapsed path has the color key for
each segment of a theme wrapper in the qualified path. Then a flat stylesheet that keeps tokens
without an alias has, for every scope, the values of the stylesheet in the same order, or the same
error. When no group stands under the key of theme wrappers, the two walks are the same, errors
included. -/
theorem namings_agree {g : Group} (hg : g.WellFormed) :
    (∀ base es fs, (g.walk .qualified base).result = .ok es →
        (g.walk .collapsed base).result = .ok fs →
          es.length = fs.length ∧ List.Forall₂ (g.SameToken base) es fs) ∧
      (∀ es fs, (g.walk .qualified "").result = .ok es → (g.walk .collapsed "").result = .ok fs →
        ∀ scope selector other table, (table.getD (.ofSelector selector)).strict = false →
          (g.flatStylesheet selector scope table).result.map Stylesheet.values =
            (g.stylesheet other scope).result.map Stylesheet.values) ∧
      (g.WithoutWrappers → ∀ base, g.walk .qualified base = g.walk .collapsed base) := by
  refine ⟨?_, ?_, ?_⟩
  · intro base es fs hes hfs
    obtain ⟨rfl, -⟩ := Group.walk_eq_ok_iff.1 hes
    obtain ⟨rfl, -⟩ := Group.walk_eq_ok_iff.1 hfs
    exact ⟨(hg.sameToken_entries base).length_eq, hg.sameToken_entries base⟩
  · intro es fs hes hfs scope selector other table htable
    rw [Group.values_flatStylesheet htable, Group.values_stylesheet, Group.resolvedValues_eq hes hfs]
  · intro hwrappers base
    exact congrArg (Visit.collect []) (Node.visits_of_noWrapper base (.group g) hwrappers)

namespace NestedVariants

/-- A color of a document. -/
def colorOf (text : String) : Json :=
  .obj [("value", .str text), ("type", .str "color")]

/-- A document with a theme wrapper among the colors of a variant, and a reference. -/
def document : Fields Json :=
  [("theme", .obj [("dark", .obj [("color", .obj
      [("ink", colorOf "#111111"),
       ("theme", .obj [("dim", .obj [("color", .obj
          [("ink", colorOf "\x7bapp.source.color.ink\x7d")])])])])])]),
   ("radius", .obj [("small", colorOf "4px")])]

/-- A document with a token, which is no group, under the key of theme wrappers. -/
def plainDocument : Fields Json :=
  [("theme", colorOf "#111111"), ("color", .obj [("ink", colorOf "#111111")])]

theorem wellFormed : Group.WellFormed (Group.ofFields document) := by
  refine Group.wellFormed_ofFields ?_
  simp [document, colorOf, Json.WellFormed, Json.FieldsWellFormed, Fields.WellFormed]

theorem plain_wellFormed : Group.WellFormed (Group.ofFields plainDocument) := by
  refine Group.wellFormed_ofFields ?_
  simp [plainDocument, colorOf, Json.WellFormed, Json.FieldsWellFormed, Fields.WellFormed]

theorem plain_withoutWrappers : Group.WithoutWrappers (Group.ofFields plainDocument) := by
  simp [plainDocument, colorOf, Group.ofFields, Node.ofJson, Token.ofFields?, Fields.get?,
    Token.valueText?, Json.str?, Group.WithoutWrappers, Group.EveryChild, Node.EveryChild,
    Node.children?, themeKey]

theorem qualified_paths : (Group.entries .qualified "" (Group.ofFields document)).map Entry.path =
    ["theme-dark-color-theme-dim-color-ink", "theme-dark-color-ink", "radius-small"] := rfl

theorem collapsed_paths : (Group.entries .collapsed "" (Group.ofFields document)).map Entry.path =
    ["color-color-ink", "color-ink", "radius-small"] := rfl

/-- A scope with the color that the document refers to. -/
def scope : Scope :=
  ⟨"app", [("color", .group [("ink", .token ⟨.str "#00cc92", .str "color", .null, []⟩)])]⟩

end NestedVariants

open NestedVariants in
/-- The two namings agree on nested theme wrappers, and on a document without them. -/
theorem namings_agree_on_nested_variants :
    (∃ es fs, (Group.walk .qualified "" (Group.ofFields document)).result = .ok es ∧
      (Group.walk .collapsed "" (Group.ofFields document)).result = .ok fs ∧
      List.Forall₂ (Group.SameToken (Group.ofFields document) "") es fs ∧
      es.map Entry.path =
        ["theme-dark-color-theme-dim-color-ink", "theme-dark-color-ink", "radius-small"] ∧
      fs.map Entry.path = ["color-color-ink", "color-ink", "radius-small"]) ∧
    (Group.flatStylesheet .dark (some scope) none (Group.ofFields document)).result.map
      Stylesheet.values = .ok ["#00cc92", "#111111", "4px"] ∧
    Group.walk .qualified "base" (Group.ofFields plainDocument) =
      Group.walk .collapsed "base" (Group.ofFields plainDocument) := by
  obtain ⟨hentries, hvalues, -⟩ := namings_agree wellFormed
  obtain ⟨-, -, hplain⟩ := namings_agree plain_wellFormed
  have hes : (Group.walk .qualified "" (Group.ofFields document)).result = .ok _ :=
    Group.walk_eq_ok_iff.2 ⟨rfl, by rw [qualified_paths]; decide⟩
  have hfs : (Group.walk .collapsed "" (Group.ofFields document)).result = .ok _ :=
    Group.walk_eq_ok_iff.2 ⟨rfl, by rw [collapsed_paths]; decide⟩
  have hstylesheet : (Group.stylesheet .dark (some scope) (Group.ofFields document)).result.map
      Stylesheet.values = .ok ["#00cc92", "#111111", "4px"] := rfl
  refine ⟨⟨_, _, hes, hfs, (hentries "" _ _ hes hfs).2, qualified_paths, collapsed_paths⟩, ?_, ?_⟩
  · exact (hvalues _ _ hes hfs (some scope) .dark .dark none rfl).trans hstylesheet
  · exact hplain plain_withoutWrappers "base"

end DesignTokens
