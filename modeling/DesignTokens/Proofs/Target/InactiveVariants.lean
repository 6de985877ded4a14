import DesignTokens.Proofs.Target.UtilityTheme

/-!
# Variants that are not entered

Of a theme wrapper only the first variant is entered. `Group.active` replaces all others by null, at
any depth, and keeps their names. Walks, which report these names, and utility themes are the same
for a tree and its active part, so trees with the same active part cannot be told apart:
`inactive_variants_without_influence`.
-/

namespace DesignTokens

mutual

/-- The node with the variants that are not entered replaced by null. -/
def Node.active : Node → Node
  | .group children => .group (Group.active children)
  | .token t => .token t
  | .raw x => .raw x

/-- The children, among which the one under the key of theme wrappers is a wrapper. -/
def Group.active : List (String × Node) → Group
  | [] => []
  | (key, node) :: rest =>
    (key, if key = themeKey then node.activeWrapper else node.active) :: Group.active rest

/-- The theme wrapper with the variants that are not entered replaced by null. -/
def Node.activeWrapper : Node → Node
  | .group variants => .group (Group.activeVariants variants)
  | .token t => .token t
  | .raw x => .raw x

/-- The variants of a theme wrapper, all but the first replaced by null. A variant is no wrapper,
whatever its name is. -/
def Group.activeVariants : List (String × Node) → Group
  | [] => []
  | (variant, body) :: others =>
    (variant, body.active) :: others.map fun other => (other.1, .raw .null)

end

/-! ## What stands in the active part -/

@[simp] theorem Node.children?_active (node : Node) :
    node.active.children? = node.children?.map Group.active := by
  cases node <;> simp [Node.active, Node.children?]

@[simp] theorem Node.children?_activeWrapper (node : Node) :
    node.activeWrapper.children? = node.children?.map Group.activeVariants := by
  cases node <;> simp [Node.activeWrapper, Node.children?]

namespace Group

/-- Under the key of theme wrappers stands the active wrapper, and under any other key the active
part of the child. -/
theorem get?_active (g : Group) (key : String) :
    Fields.get? (active g) key =
      (Fields.get? g key).map (if key = themeKey then Node.activeWrapper else Node.active) := by
  induction g with
  | nil => rfl
  | cons field rest ih =>
      obtain ⟨name, node⟩ := field
      rw [active, Fields.get?_cons, Fields.get?_cons, ih]
      by_cases hname : name = key
      · subst hname
        by_cases hkey : name = themeKey <;> simp [hkey]
      · rw [if_neg hname, if_neg hname]

/-- The active part keeps the variants of the theme wrapper. -/
theorem group?_active_themeKey (g : Group) :
    (active g).group? themeKey = (g.group? themeKey).map activeVariants := by
  rw [group?, group?, child?, child?, get?_active, if_pos rfl, Option.bind_map, Option.map_bind]
  exact congrArg _ (funext Node.children?_activeWrapper)

/-- Under any other key the active part has the active part of a group. -/
theorem group?_active {key : String} (hkey : key ≠ themeKey) (g : Group) :
    (active g).group? key = (g.group? key).map active := by
  rw [group?, group?, child?, child?, get?_active, if_neg hkey, Option.bind_map, Option.map_bind]
  exact congrArg _ (funext Node.children?_active)

/-- The active part of a tree with a new child is its active part with that of the child. -/
theorem active_add {key : String} (hkey : key ≠ themeKey) (g : Group) (node : Node) :
    active (g.add key node) = Group.add (active g) key node.active := by
  rw [add, add]
  induction g with
  | nil => simp [Fields.insert, active, hkey]
  | cons field rest ih =>
      obtain ⟨name, first⟩ := field
      rw [active, Fields.insert, Fields.insert]
      by_cases hname : name = key
      · rw [if_pos hname, if_pos hname, active, if_neg (hname ▸ hkey)]
      · rw [if_neg hname, if_neg hname, active, ih]

/-- The variants that are not entered keep their names. -/
@[simp] theorem names_activeVariants (variants : Group) :
    Fields.names (activeVariants variants) = Fields.names variants := by
  cases variants <;> simp [activeVariants, Fields.names, Function.comp_def]

@[simp] theorem length_activeVariants (variants : Group) :
    (activeVariants variants).length = variants.length := by
  cases variants <;> simp [activeVariants]

/-- What is reported of a wrapper are the names of its variants. -/
theorem variantVisit_activeVariants (variants : Group) :
    variantVisit (activeVariants variants) = variantVisit variants := by
  rw [variantVisit, variantVisit, length_activeVariants, names_activeVariants]

end Group

/-- Keys that do not lead into wrappers lead to the active part of what they led to. -/
theorem Node.at?_active {keys : List String} (hkeys : themeKey ∉ keys) (node : Node) :
    node.active.at? keys = (node.at? keys).map Node.active := by
  induction keys generalizing node with
  | nil => simp
  | cons key keys ih =>
      obtain ⟨hkey, hbelow⟩ := not_or.1 (mt List.mem_cons.2 hkeys)
      cases node with
      | token t => rfl
      | raw x => rfl
      | group g =>
          rw [Node.active, Node.at?_group_cons, Node.at?_group_cons, Group.get?_active,
            if_neg (Ne.symm hkey), Option.bind_map, Option.map_bind]
          exact congrArg _ (funext fun child => ih hbelow child)

/-! ## Walks -/

/-- The active part of a token is the token. -/
theorem Node.ownVisit_active (path key : String) (node : Node) :
    node.active.ownVisit path key = node.ownVisit path key := by
  cases node with
  | token t => rw [Node.active]
  | raw x => rw [Node.active]
  | group children => rfl

variable {style : PathStyle}

mutual

/-- A walk meets the same in a node and in its active part. -/
theorem Node.visits_active (path : String) : (node : Node) →
    node.active.visits style path = node.visits style path
  | .token _ | .raw _ => by rw [Node.active]
  | .group children => by
      rw [Node.active, Node.visits, Node.visits, Group.themeVisits_active path children,
        Group.colorVisits_active _ children, Group.restVisits_active path children]

theorem Group.themeVisits_active (path : String) : (children : List (String × Node)) →
    Group.themeVisits style path (Group.active children) = Group.themeVisits style path children
  | [] => rfl
  | (key, node) :: rest => by
      rw [Group.active, Group.themeVisits, Group.themeVisits]
      by_cases hkey : key = themeKey
      · rw [if_pos hkey, if_pos hkey, if_pos hkey, Node.wrapperVisits_activeWrapper path node]
      · rw [if_neg hkey, if_neg hkey, Group.themeVisits_active path rest]

theorem Node.wrapperVisits_activeWrapper (path : String) : (node : Node) →
    node.activeWrapper.wrapperVisits style path = node.wrapperVisits style path
  | .token _ | .raw _ => by rw [Node.activeWrapper]
  | .group variants => by
      rw [Node.activeWrapper, Node.wrapperVisits, Node.wrapperVisits,
        Group.variantVisit_activeVariants, Group.firstVisits_activeVariants path variants]

theorem Group.firstVisits_activeVariants (path : String) : (variants : List (String × Node)) →
    Group.firstVisits style path (Group.activeVariants variants) =
      Group.firstVisits style path variants
  | [] => rfl
  | (variant, body) :: _ => by
      rw [Group.activeVariants, Group.firstVisits, Group.firstVisits, Node.bodyVisits_active _ body]

theorem Node.bodyVisits_active (path : String) : (node : Node) →
    node.active.bodyVisits style path = node.bodyVisits style path
  | .token _ | .raw _ => by rw [Node.active]
  | .group children => by
      rw [Node.active, Node.bodyVisits, Node.bodyVisits, Group.colorVisits_active path children]

theorem Group.colorVisits_active (path : String) : (children : List (String × Node)) →
    Group.colorVisits style path (Group.active children) = Group.colorVisits style path children
  | [] => rfl
  | (key, node) :: rest => by
      rw [Group.active, Group.colorVisits, Group.colorVisits]
      by_cases hkey : key = colorKey
      · have htheme : key ≠ themeKey := by
          rw [hkey]
          decide
        rw [if_pos hkey, if_pos hkey, if_neg htheme, Node.visits_active path node]
      · rw [if_neg hkey, if_neg hkey, Group.colorVisits_active path rest]

theorem Group.restVisits_active (path : String) : (children : List (String × Node)) →
    Group.restVisits style path (Group.active children) = Group.restVisits style path children
  | [] => rfl
  | (key, node) :: rest => by
      rw [Group.active, Group.restVisits, Group.restVisits, Group.restVisits_active path rest]
      by_cases hkey : key = themeKey
      · rw [if_pos hkey, if_pos hkey]
      · rw [if_neg hkey, if_neg hkey, if_neg hkey, Node.ownVisit_active path key node,
          Node.visits_active _ node]

end

/-- The walk of a tree is that of its active part, with everything that it reports. -/
theorem Group.walk_active (style : PathStyle) (path : String) (g : Group) :
    (Group.active g).walk style path = g.walk style path :=
  congrArg (Visit.collect []) (Node.visits_active path (.group g))

/-! ## Utility themes -/

mutual

/-- The references to the tokens below a node are those of its active part. -/
theorem Node.variableTree?_active (path : String) : (node : Node) →
    node.active.variableTree? path = node.variableTree? path
  | .token _ | .raw _ => by rw [Node.active]
  | .group children => by
      rw [Node.active, Node.variableTree?, Node.variableTree?,
        Group.variableTree_active path children]

theorem Group.variableTree_active (path : String) : (children : List (String × Node)) →
    Group.variableTree path (Group.active children) = Group.variableTree path children
  | [] => rfl
  | (key, node) :: rest => by
      rw [Group.active, Group.variableTree, Group.variableTree, Group.variableTree_active path rest]
      by_cases hkey : key = themeKey
      · rw [if_pos hkey, if_pos hkey]
      · rw [if_neg hkey, if_neg hkey, if_neg hkey, Node.variableTree?_active _ node]

end

/-- Unwrapping an active wrapper reports the same variants, and gives the first one with the active
part of its colors. -/
theorem Group.unwrapTheme_activeVariants (wrapper : Group) :
    Group.unwrapTheme (Group.activeVariants wrapper) =
      ⟨wrapper.unwrapTheme.log,
        wrapper.unwrapTheme.result.map fun unwrapped =>
          (unwrapped.1, unwrapped.2.map Group.active)⟩ := by
  cases wrapper with
  | nil => rfl
  | cons first others =>
      obtain ⟨variant, body⟩ := first
      have hcolor : colorKey ≠ themeKey := by decide
      have hcolors : (body.active.children?.bind fun children => group? children colorKey) =
          (body.children?.bind fun children => group? children colorKey).map Group.active := by
        rw [Node.children?_active, Option.bind_map, Option.map_bind]
        exact congrArg _ (funext (Group.group?_active hcolor))
      have hnames := Group.names_activeVariants ((variant, body) :: others)
      have hlength := Group.length_activeVariants ((variant, body) :: others)
      rw [Group.activeVariants] at hnames hlength ⊢
      simp only [Group.unwrapTheme, hnames, hlength, hcolors]
      by_cases hmany : 1 < ((variant, body) :: others).length
      · simp only [if_pos hmany]
        rfl
      · simp only [if_neg hmany]
        rfl

namespace UtilityTheme

/-- The categories of an active part are looked up in the active part of where they were. -/
theorem categoryRoot_active (g : Group) :
    categoryRoot (Group.active g) =
      ⟨(categoryRoot g).log, (categoryRoot g).result.map Group.active⟩ := by
  have hcolor : colorKey ≠ themeKey := by decide
  rw [categoryRoot, categoryRoot, Group.group?_active_themeKey, Group.group?_active hcolor]
  cases g.group? themeKey with
  | none => rfl
  | some wrapper =>
      cases g.group? colorKey with
      | some own => rfl
      | none =>
          dsimp only [Option.map_some, Option.map_none]
          rw [Group.unwrapTheme_activeVariants]
          obtain ⟨log, result⟩ := wrapper.unwrapTheme
          cases result with
          | error e => rfl
          | ok unwrapped =>
              obtain ⟨variant, colors⟩ := unwrapped
              cases colors with
              | none => rfl
              | some colors =>
                  have hadd := Group.active_add hcolor g (.group colors)
                  rw [Node.active] at hadd
                  simp only [Outcome.andThen, Except.map, Option.map_some, Outcome.done, hadd]

/-- A utility theme refers to nothing but tokens of the active part. -/
theorem ofRoot_active (root : Group) : ofRoot (Group.active root) = ofRoot root := by
  refine List.foldl_ext _ _ _ fun theme category hcategory => ?_
  obtain ⟨-, -, -, htheme⟩ := categories_cases hcategory
  have hvariables : categoryVariables (Group.active root) category.1 =
      categoryVariables root category.1 := by
    have hchildren : ((Group.active root).at? category.1).bind Node.children? =
        ((root.at? category.1).bind Node.children?).map Group.active := by
      rw [Group.at?_eq, Group.at?_eq, ← Node.active, Node.at?_active htheme, Option.bind_map,
        Option.map_bind]
      exact congrArg _ (funext Node.children?_active)
    rw [categoryVariables, categoryVariables, hchildren]
    cases (root.at? category.1).bind Node.children? with
    | none => rfl
    | some children => exact Group.variableTree_active _ children
  rw [addCategory, addCategory, hvariables]

end UtilityTheme

/-- The utility theme of a tree is that of its active part. -/
theorem Group.utilityTheme_active (g : Group) :
    (Group.active g).utilityTheme = g.utilityTheme := by
  rw [utilityTheme, utilityTheme, UtilityTheme.categoryRoot_active]
  cases hroot : UtilityTheme.categoryRoot g with
  | mk log result =>
      cases result with
      | error e => rfl
      | ok root => simp only [Outcome.andThen, Except.map, UtilityTheme.ofRoot_active]

/-- Trees that differ only in theme variants other than the first of a wrapper, at any depth, have
the same walks, below every path and in both namings, with the same entries or the same error and
the same reports of wrappers. They have the same utility theme. -/
theorem inactive_variants_without_influence {g h : Group}
    (hactive : Group.active g = Group.active h) :
    (∀ style path, g.walk style path = h.walk style path) ∧ g.utilityTheme = h.utilityTheme := by
  constructor
  · intro style path
    rw [← Group.walk_active style path g, hactive, Group.walk_active]
  · rw [← Group.utilityTheme_active g, hactive, Group.utilityTheme_active]

namespace TwoVariants

/-- A color of a document. -/
def ink : Json :=
  .obj [("value", .str "#111111"), ("type", .str "color")]

/-- A document with a second variant, and a wrapper with a second variant among the colors of the
first one. -/
def document (dark bright : Json) : Fields Json :=
  [("theme", .obj
      [("light", .obj [("color", .obj
          [("ink", ink),
           ("theme", .obj [("dim", .obj [("color", .obj [("ink", ink)])]), ("bright", bright)])])]),
       ("dark", dark)]),
   ("radius", .obj [("small", ink)])]

/-- A variant with colors and a wrapper of its own. -/
def themed : Json :=
  .obj [("theme", .obj [("dim", .obj [("color", .obj [("ink", ink)])])]),
    ("color", .obj [("ink", ink), ("theme", ink)])]

end TwoVariants

open TwoVariants in
/-- Whatever the second variants are, the document has these reports, colors and utility theme. -/
theorem second_variants_without_influence :
    Group.active (Group.ofFields (document themed .null)) =
        Group.active (Group.ofFields (document ink themed)) ∧
      Group.walk .qualified "base" (Group.ofFields (document themed .null)) =
        Group.walk .qualified "base" (Group.ofFields (document ink themed)) ∧
      (Group.walk .qualified "base" (Group.ofFields (document ink themed))).log =
        [.variantsSkipped ["light", "dark"], .variantsSkipped ["dim", "bright"]] ∧
      Group.utilityTheme (Group.ofFields (document themed .null)) =
        Group.utilityTheme (Group.ofFields (document ink themed)) := by
  have hactive : Group.active (Group.ofFields (document themed .null)) =
      Group.active (Group.ofFields (document ink themed)) := rfl
  obtain ⟨hwalk, htheme⟩ := inactive_variants_without_influence hactive
  exact ⟨hactive, hwalk .qualified "base", rfl, htheme⟩

end DesignTokens
