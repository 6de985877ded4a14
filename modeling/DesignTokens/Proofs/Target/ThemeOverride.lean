import DesignTokens.Proofs.Resolution
import DesignTokens.Proofs.Target.FlatStylesheet
import DesignTokens.Proofs.Target.UtilityTheme
import DesignTokens.Proofs.Tree.Rebase
import DesignTokens.Target.ConstantUnit
import DesignTokens.Target.NameModule

/-!
# Theme overrides

The colors of a theme override those of the base tree: every target gives the variables of a theme
tree the names that it gives to the same colors at the root of a tree. Targets with collapsed naming
cannot tell the two trees apart. Flat stylesheets walk them below different paths and give the dark
theme a table of its own, so they agree up to the path that a duplicate is reported at.
`theme_override_lands` is the whole statement.
-/

namespace DesignTokens

/-- Two results are equal, or both are the error of a path that occurs twice. -/
inductive SameUpToPath {α : Type} : Except Error α → Except Error α → Prop where
  | same (result : Except Error α) : SameUpToPath result result
  | duplicates (path other : String) :
    SameUpToPath (.error (.duplicatePath path)) (.error (.duplicatePath other))

namespace Group

/-- The tree with nothing but these colors. -/
def ofColors (colors : Group) : Group :=
  [(colorKey, .group colors)]

/-- The tree with nothing but a theme of one variant with these colors. -/
def ofThemeColors (variant : String) (colors : Group) : Group :=
  [(themeKey, .group [(variant, .group [(colorKey, .group colors)])])]

/-- The walk of the colors at the root of a tree starts below their key. -/
theorem visits_ofColors (style : PathStyle) (colors : Group) :
    (ofColors colors).visits style "" = colors.visits style colorKey := by
  simp [ofColors, visits, Node.visits, themeVisits, colorVisits, restVisits, Node.ownVisit,
    show colorKey ≠ themeKey by decide]

/-- The walk of the colors of a theme starts below the segment of their variant. -/
theorem visits_ofThemeColors (style : PathStyle) (variant : String) (colors : Group) :
    (ofThemeColors variant colors).visits style "" =
      colors.visits style (style.themeSegment variant) := by
  simp [ofThemeColors, visits, Node.visits, themeVisits, Node.wrapperVisits, variantVisit,
    firstVisits, Node.bodyVisits, colorVisits, restVisits, show themeKey ≠ colorKey by decide]

/-- In collapsed naming, the walks of the two trees are the same. -/
theorem walk_ofThemeColors (variant : String) (colors : Group) :
    (ofThemeColors variant colors).walk .collapsed "" = (ofColors colors).walk .collapsed "" := by
  rw [walk, walk, visits_ofThemeColors, visits_ofColors]
  rfl

end Group

/-- A utility theme depends on what stands outside of theme wrappers only. -/
theorem UtilityTheme.ofRoot_congr {root other : Group}
    (h : ∀ key keys, key ≠ themeKey → root.at? (key :: keys) = other.at? (key :: keys)) :
    ofRoot root = ofRoot other := by
  refine List.foldl_ext _ _ _ fun theme category hcategory => ?_
  obtain ⟨-, hne, -, htheme⟩ := categories_cases hcategory
  obtain ⟨key, keys, hsplit⟩ := List.exists_cons_of_ne_nil hne
  have hkey : key ≠ themeKey := by
    rintro rfl
    exact htheme (hsplit ▸ List.mem_cons_self)
  have hvariables : categoryVariables root category.1 = categoryVariables other category.1 := by
    rw [categoryVariables, categoryVariables, hsplit, h key keys hkey]
  rw [addCategory, addCategory, hvariables]

namespace Group

variable {scope : Option Scope}

/-- Utility themes find the colors of the theme where the base tree has its own. -/
theorem utilityTheme_ofThemeColors (variant : String) (colors : Group) :
    (ofThemeColors variant colors).utilityTheme = (ofColors colors).utilityTheme := by
  have hbase : UtilityTheme.categoryRoot (ofColors colors) = .done (ofColors colors) := rfl
  have htheme : UtilityTheme.categoryRoot (ofThemeColors variant colors) =
      .done ((ofThemeColors variant colors).add colorKey (.group colors)) := rfl
  have hroots : UtilityTheme.ofRoot ((ofThemeColors variant colors).add colorKey (.group colors)) =
      UtilityTheme.ofRoot (ofColors colors) := by
    refine UtilityTheme.ofRoot_congr fun key keys hkey => ?_
    rw [at?_eq, at?_eq, Node.at?_group_cons, Node.at?_group_cons, add, Fields.get?_insert]
    rw [ofThemeColors, ofColors, Fields.get?_cons_of_ne hkey.symm, Fields.get?_cons]
  rw [utilityTheme, utilityTheme, hbase, htheme]
  exact congrArg Outcome.done hroots

/-- The tables of the two themes give a site the same name, each below its own path. -/
theorem name?_below {base other : String} (hbase : base ≠ "") (hother : other ≠ "")
    (strict : Bool) (s : Site) :
    ({ AliasTable.below base with strict } : AliasTable).name? (s.entry .qualified base) =
      ({ AliasTable.below other with strict } : AliasTable).name? (s.entry .qualified other) := by
  have hget (path : String) (hpath : path ≠ "") :
      (AliasTable.below path).names.get? (s.entry .qualified path).path =
        if s.tail .qualified ∈ AliasTable.sharedNames then some (s.tail .qualified) else none := by
    rw [← AliasTable.get?_below path, ← Site.path_eq_joinPath (Or.inl hpath)]
    rfl
  rw [AliasTable.name?, AliasTable.name?, hget base hbase, hget other hother]
  rfl

/-- Trees whose walks visit the same group below different paths have flat declarations that are the
same up to paths, when their tables give its sites the same names. -/
theorem sameUpToPath_flatDeclarations {g h colors : Group} {base other : String}
    {table table' : AliasTable} (hbase : base ≠ "") (hother : other ≠ "")
    (hg : g.walk .qualified "" = colors.walk .qualified base)
    (hh : h.walk .qualified "" = colors.walk .qualified other)
    (hnames : ∀ s : Site, table.name? (s.entry .qualified base) =
      table'.name? (s.entry .qualified other)) :
    SameUpToPath (g.flatDeclarations scope table).result
      (h.flatDeclarations scope table').result := by
  by_cases htails : (colors.sites.map (Site.tail .qualified)).Nodup
  · have hleft := walk_of_nodup_tails hbase htails
    have hright := walk_of_nodup_tails hother htails
    rw [← hg] at hleft
    rw [← hh] at hright
    rw [flatDeclarations_of_walk hleft, flatDeclarations_of_walk hright, List.findSome?_map,
      List.findSome?_map, List.filterMap_map, List.filterMap_map]
    -- The tokens of the two walks are those of the sites, so only the names could differ.
    simp only [Function.comp_def, hnames]
    exact .same _
  · obtain ⟨path, hleft⟩ := walk_of_not_nodup_tails hbase htails
    obtain ⟨path', hright⟩ := walk_of_not_nodup_tails hother htails
    rw [← hg] at hleft
    rw [← hh] at hright
    rw [flatDeclarations_of_walk_error hleft, flatDeclarations_of_walk_error hright]
    exact .duplicates path path'

end Group

/-- A theme override lands on the variable that it overrides. Whatever the colors are, a theme of
one variant with them has the same declarations, utility theme, token names, constants and classes
of constants as the tree with them at its root, events and errors included. The flat stylesheet of
the dark theme declares what that of the base tree does, with tables that keep or leave out tokens
without an alias; when a path occurs twice in the one, so it does in the other. -/
theorem theme_override_lands (colors : Group) (variant : String) (scope : Option Scope)
    (config : UnitConfig) :
    (Group.ofThemeColors variant colors).declarations scope =
        (Group.ofColors colors).declarations scope ∧
      (Group.ofThemeColors variant colors).utilityTheme = (Group.ofColors colors).utilityTheme ∧
      (Group.ofThemeColors variant colors).tokenNames = (Group.ofColors colors).tokenNames ∧
      (Group.ofThemeColors variant colors).constants scope =
        (Group.ofColors colors).constants scope ∧
      (Group.ofThemeColors variant colors).constantClasses config =
        (Group.ofColors colors).constantClasses config ∧
      SameUpToPath
        ((Group.ofThemeColors "dark" colors).flatDeclarations scope
          AliasTable.dark.asPermissive).result
        ((Group.ofColors colors).flatDeclarations scope AliasTable.root.asPermissive).result ∧
      SameUpToPath
        ((Group.ofThemeColors "dark" colors).flatDeclarations scope AliasTable.dark.asStrict).result
        ((Group.ofColors colors).flatDeclarations scope AliasTable.root.asStrict).result := by
  have hresolved (s : Option Scope) : (Group.ofThemeColors variant colors).resolved .collapsed s =
      (Group.ofColors colors).resolved .collapsed s := by
    rw [Group.resolved, Group.resolved, Group.walk_ofThemeColors]
  have hconstants (s : Option Scope) : (Group.ofThemeColors variant colors).constants s =
      (Group.ofColors colors).constants s := by
    rw [Group.constants, Group.constants, hresolved]
  have hflat (strict : Bool) : SameUpToPath
      ((Group.ofThemeColors "dark" colors).flatDeclarations scope
        { AliasTable.dark with strict }).result
      ((Group.ofColors colors).flatDeclarations scope { AliasTable.root with strict }).result := by
    refine Group.sameUpToPath_flatDeclarations (by decide) (by decide)
      (congrArg (Visit.collect []) (Group.visits_ofThemeColors .qualified "dark" colors))
      (congrArg (Visit.collect []) (Group.visits_ofColors .qualified colors)) ?_
    exact fun s => Group.name?_below (by decide) (by decide) strict s
  refine ⟨?_, Group.utilityTheme_ofThemeColors variant colors, ?_, hconstants scope, ?_,
    hflat false, hflat true⟩
  · rw [Group.declarations, Group.declarations, hresolved]
  · rw [Group.tokenNames, Group.tokenNames, Group.walk_ofThemeColors]
  · rw [Group.constantClasses, Group.constantClasses, hconstants]

end DesignTokens
