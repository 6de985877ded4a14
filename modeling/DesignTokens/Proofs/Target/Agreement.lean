import DesignTokens.Proofs.ConstantUnit.Members
import DesignTokens.Proofs.Fields
import DesignTokens.Proofs.Resolution
import DesignTokens.Proofs.Tree.Site
import DesignTokens.Target.NameModule

/-!
# Agreement of the targets

Stylesheets, name modules and units of constants are made from the same walk. `targets_agree` says
that wherever a unit can be made, the others can be made too, all of them have the same names, and
the table of the unit leads from every name to one member with the value of the stylesheet.
-/

namespace DesignTokens

namespace Group

variable {g : Group} {scope : Option Scope}

/-- The constants of a tree are those of its resolved tokens. -/
theorem constants_eq_ok_iff {ks : List Constant} :
    (g.constants scope).result = .ok ks ↔
      ∃ rs, (g.resolved .collapsed scope).result = .ok rs ∧ rs.map Constant.ofEntry = ks :=
  Outcome.andThen_done_eq_ok_iff

/-- The stylesheet of a tree declares its resolved tokens. -/
theorem stylesheet_eq_ok_iff {selector : Selector} {s : Stylesheet} :
    (g.stylesheet selector scope).result = .ok s ↔
      ∃ rs, (g.resolved .collapsed scope).result = .ok rs ∧
        s = ⟨selector, rs.map Declaration.ofEntry⟩ := by
  have hdeclarations (ds : List Declaration) : (g.declarations scope).result = .ok ds ↔
      ∃ rs, (g.resolved .collapsed scope).result = .ok rs ∧ rs.map Declaration.ofEntry = ds :=
    Outcome.andThen_done_eq_ok_iff
  rw [stylesheet, Outcome.andThen_done_eq_ok_iff]
  simp only [hdeclarations]
  constructor
  · intro hmade
    obtain ⟨ds, ⟨rs, hrs, rfl⟩, rfl⟩ := hmade
    exact ⟨rs, hrs, rfl⟩
  · intro hresolved
    obtain ⟨rs, hrs, rfl⟩ := hresolved
    exact ⟨_, ⟨rs, hrs, rfl⟩, rfl⟩

/-- The unit of a tree holds the constants of its resolved tokens in classes that accept them. -/
theorem constantUnit_eq_ok {config : UnitConfig} {generated : Moment} {u : ConstantUnit}
    (h : (g.constantUnit config generated).result = .ok u) :
    (∃ rs, (g.resolved .collapsed config.scope).result = .ok rs ∧
        u.constants = rs.map Constant.ofEntry) ∧
      ConstantClass.group config.className u.constants = .ok u.classes := by
  obtain ⟨ks, hks, h⟩ := Outcome.andThen_eq_ok_iff.1 h
  obtain ⟨classes, hclasses, h⟩ := Outcome.andThen_eq_ok_iff.1 h
  obtain ⟨timestamp, -, rfl⟩ := Outcome.andThen_done_eq_ok_iff.1 h
  obtain ⟨rs, hrs, rfl⟩ := constants_eq_ok_iff.1 hks
  exact ⟨⟨rs, hrs, rfl⟩, hclasses⟩

/-- A stylesheet declares the paths of the sites of its tree, in order and without repetition. -/
theorem names_of_stylesheet {selector : Selector} {s : Stylesheet}
    (hs : (g.stylesheet selector scope).result = .ok s) :
    s.declarations.map Declaration.name = g.sites.map (Site.path .collapsed "") ∧
      (s.declarations.map Declaration.name).Nodup := by
  obtain ⟨rs, hrs, rfl⟩ := stylesheet_eq_ok_iff.1 hs
  obtain ⟨hnodup, hpaths⟩ := nodup_resolved_paths hrs
  have hnames : (rs.map Declaration.ofEntry).map Declaration.name = rs.map fun r => r.1.path :=
    List.map_map
  dsimp only
  rw [hnames]
  refine ⟨?_, hnodup⟩
  rw [hpaths, entries_eq_map_sites, List.map_map]
  rfl

/-- The unit of a tree has the class name that it is configured with. -/
theorem className_constantUnit {config : UnitConfig} {generated : Moment} {u : ConstantUnit}
    (h : (g.constantUnit config generated).result = .ok u) : u.className = config.className := by
  obtain ⟨ks, -, h⟩ := Outcome.andThen_eq_ok_iff.1 h
  obtain ⟨classes, -, h⟩ := Outcome.andThen_eq_ok_iff.1 h
  obtain ⟨timestamp, -, rfl⟩ := Outcome.andThen_done_eq_ok_iff.1 h
  rfl

/-- The unit of a tree lists the paths of its walk. -/
theorem names_constantUnit {config : UnitConfig} {generated : Moment} {u : ConstantUnit}
    (h : (g.constantUnit config generated).result = .ok u) :
    u.names = (g.entries .collapsed "").map Entry.path := by
  obtain ⟨⟨rs, hrs, hconstants⟩, -⟩ := constantUnit_eq_ok h
  rw [ConstantUnit.names, hconstants, ← (nodup_resolved_paths hrs).2, List.map_map]
  rfl

/-- The token names of a tree are the names of its resolved tokens, in order and without
repetition. -/
theorem tokenNames_of_resolved {rs : List (Entry × Json)}
    (h : (g.resolved .collapsed scope).result = .ok rs) :
    g.tokenNames.result = .ok (rs.map fun r => r.1.path) ∧ (rs.map fun r => r.1.path).Nodup := by
  obtain ⟨hwalk, -⟩ := resolved_eq_ok h
  obtain ⟨hnodup, hpaths⟩ := nodup_resolved_paths h
  refine ⟨?_, hnodup⟩
  rw [hpaths, tokenNames, Outcome.andThen_done_eq_ok_iff]
  exact ⟨_, hwalk, rfl⟩

end Group

/-- The run-time map has the names of its module, when these are distinct. -/
theorem NameModule.names_tokenMap {names : List String} (h : names.Nodup) :
    (tokenMap names).names = names := by
  have hnames (pairs : List String) :
      Fields.names (pairs.map fun name => (name, Json.str (variableReference name))) = pairs := by
    rw [Fields.names, List.map_map]
    exact List.map_id pairs
  rw [tokenMap, Fields.ofPairs_eq_self, hnames]
  rw [Fields.wellFormed_iff, hnames]
  exact h

open ConstantUnit in
/-- Whenever a unit can be made from a tree, the stylesheet and the name modules can be made too.
The stylesheet declares the token names in order and without repetition, the run-time map and the
unit list the same names, and the rows of the table are a permutation of them. Classes have distinct
names. For each declaration one row has its name, and one member the class and name in that row; the
literal of this member is the declared value in quotes. -/
theorem targets_agree {g : Group} {config : UnitConfig} {generated : Moment} {u : ConstantUnit}
    (hunit : (g.constantUnit config generated).result = .ok u) (selector : Selector) :
    ∃ s names, (g.stylesheet selector config.scope).result = .ok s ∧
      g.tokenNames.result = .ok names ∧ names.Nodup ∧
      s.declarations.map Declaration.name = names ∧ (NameModule.tokenMap names).names = names ∧
      u.names = names ∧ (u.rows.map Row.path).Perm names ∧
      (u.classes.map ConstantClass.name).Nodup ∧
      ∀ d ∈ s.declarations, ∃ row, u.rows.filter (fun r => r.path = d.name) = [row] ∧
        ∃ m, u.members.filter (fun m => m.address = row.address) = [m] ∧
          m.literal = quoteLiteral d.value := by
  -- All targets are made from the tokens that were resolved for the unit.
  obtain ⟨⟨rs, hrs, hconstants⟩, hclasses⟩ := Group.constantUnit_eq_ok hunit
  obtain ⟨hnames, hnodup⟩ := Group.tokenNames_of_resolved hrs
  have hlisted : u.names = rs.map fun r => r.1.path := by
    rw [ConstantUnit.names, hconstants, List.map_map]
    rfl
  refine ⟨⟨selector, rs.map Declaration.ofEntry⟩, _, Group.stylesheet_eq_ok_iff.2 ⟨rs, hrs, rfl⟩,
    hnames, hnodup, ?_, NameModule.names_tokenMap hnodup, hlisted, ?_,
    ConstantClass.nodup_names hclasses, ?_⟩
  · rw [List.map_map]
    rfl
  · rw [← hlisted]
    exact rows_paths_perm hclasses
  · intro d hd
    obtain ⟨r, hr, rfl⟩ := List.mem_map.1 hd
    have hk : Constant.ofEntry r ∈ u.constants := hconstants ▸ List.mem_map_of_mem hr
    exact row_resolves hclasses (hlisted ▸ hnodup) hk

/-- The targets agree on a reference and a literal in two categories. -/
theorem targets_agree_on_reference :
    let g : Group :=
      [("color", .group [("primary",
        .token ⟨.str "\x7bapp.source.color.brand\x7d", .str "color", .null, []⟩)]),
       ("spacing", .group [("small", .token ⟨.str "4px", .str "dimension", .null, []⟩)])]
    let scope : Scope :=
      ⟨"app", [("color", .group [("brand", .token ⟨.str "#00cc92", .str "color", .null, []⟩)])]⟩
    ∃ u : ConstantUnit,
      (g.constantUnit { scope := some scope } ⟨⟨2024, 1, 2⟩, 3, 4, 5, 678901, some 0⟩).result =
        .ok u ∧
      ∃ s names, (g.stylesheet .root (some scope)).result = .ok s ∧
        g.tokenNames.result = .ok names ∧ names.Nodup ∧
        s.declarations.map Declaration.name = names ∧ (NameModule.tokenMap names).names = names ∧
        u.names = names ∧ (u.rows.map ConstantUnit.Row.path).Perm names ∧
        (u.classes.map ConstantClass.name).Nodup ∧
        ∀ d ∈ s.declarations, ∃ row, u.rows.filter (fun r => r.path = d.name) = [row] ∧
          ∃ m, u.members.filter (fun m => m.address = row.address) = [m] ∧
            m.literal = quoteLiteral d.value := by
  intro g scope
  let primary : Constant := ⟨"color-primary", .str "#00cc92", "Primary"⟩
  let small : Constant := ⟨"spacing-small", .str "4px", "Small"⟩
  have hunit : (g.constantUnit { scope := some scope }
      ⟨⟨2024, 1, 2⟩, 3, 4, 5, 678901, some 0⟩).result =
      .ok ⟨"Ivy.Themes", "DesignSystemTokens", "2024-01-02T03:04:05.678Z", [primary, small],
        [⟨"color", [primary]⟩, ⟨"spacing", [small]⟩]⟩ := by
    decide +kernel
  exact ⟨_, hunit, targets_agree hunit .root⟩

end DesignTokens
