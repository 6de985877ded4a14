import DesignTokens.Tree.Walk

/-!
# The sites of a walk

A walk reaches the same tokens in the same order whatever their paths are called. `Group.sites`
lists them with the steps that lead to them, where a theme wrapper is passed in one step.
`entries_eq_map_sites` derives the entries of every walk from that list: the path of an entry joins
the segments of its steps and its own key.
-/

namespace DesignTokens

/-- A step of a walk: into the group under a key, or through a theme wrapper into the color group of
a variant. -/
inductive Step where
  | child (key : String)
  | theme (variant : String)
  deriving DecidableEq

namespace Step

/-- The keys that a step passes. -/
def keys : Step → List String
  | .child key => [key]
  | .theme variant => [themeKey, variant, colorKey]

/-- The path segment that a step adds. -/
def segment (style : PathStyle) : Step → String
  | .child key => key
  | .theme variant => style.themeSegment variant

end Step

/-- A token that a walk reaches: the steps to the group that it stands in, and its key there. -/
structure Site where
  above : List Step
  key : String
  token : Token

namespace Site

/-- The site seen from one step further up. -/
def under (step : Step) (s : Site) : Site :=
  { s with above := step :: s.above }

/-- The steps and the key of a site, without its token. -/
def place (s : Site) : List Step × String :=
  (s.above, s.key)

/-- The keys that lead to a site. -/
def keys (s : Site) : List String :=
  s.above.flatMap Step.keys ++ [s.key]

/-- The path of a site below another path. -/
def path (style : PathStyle) (base : String) (s : Site) : String :=
  joinPath (s.above.foldl (fun path step => joinPath path (step.segment style)) base) s.key

/-- The entry of a site in a walk. -/
def entry (style : PathStyle) (base : String) (s : Site) : Entry :=
  ⟨s.path style base, s.key, s.token⟩

/-- The entries of sites from one step further up are their entries below the segment of that
step. -/
theorem map_entry_under (style : PathStyle) (base : String) (step : Step) (sites : List Site) :
    (sites.map (under step)).map (entry style base) =
      sites.map (entry style (joinPath base (step.segment style))) :=
  List.map_map

end Site

/-- The site of a token that stands under a key. -/
def Node.ownSite (key : String) : Node → List Site
  | .token t => [⟨[], key, t⟩]
  | _ => []

mutual

/-- The sites inside a group, in the order of a walk. -/
def Node.sites : Node → List Site
  | .group children =>
    Group.themeSites children ++
      ((Group.colorSites children).map (Site.under (.child colorKey)) ++ Group.restSites children)
  | _ => []

/-- The sites inside the theme wrapper among these children. -/
def Group.themeSites : List (String × Node) → List Site
  | [] => []
  | (key, node) :: rest =>
    if key = themeKey then node.wrapperSites else Group.themeSites rest

/-- The sites inside a theme wrapper. -/
def Node.wrapperSites : Node → List Site
  | .group variants => Group.firstSites variants
  | _ => []

/-- The sites inside the first variant of a theme wrapper. -/
def Group.firstSites : List (String × Node) → List Site
  | [] => []
  | (variant, body) :: _ => body.bodySites.map (Site.under (.theme variant))

/-- The sites inside the color group of a variant. -/
def Node.bodySites : Node → List Site
  | .group children => Group.colorSites children
  | _ => []

/-- The sites inside the color group among these children. -/
def Group.colorSites : List (String × Node) → List Site
  | [] => []
  | (key, node) :: rest =>
    if key = colorKey then node.sites else Group.colorSites rest

/-- The sites of the children other than a theme wrapper and a color group. -/
def Group.restSites : List (String × Node) → List Site
  | [] => []
  | (key, node) :: rest =>
    (if key = themeKey then []
      else node.ownSite key ++
        if key = colorKey then [] else node.sites.map (Site.under (.child key))) ++
      Group.restSites rest

end

/-- The sites of a tree, in the order of a walk. -/
def Group.sites (g : Group) : List Site :=
  (Node.group g).sites

/-! ## Entries -/

/-- The visit of a token is the entry of its site. -/
theorem Node.filterMap_ownVisit (style : PathStyle) (base key : String) (node : Node) :
    (node.ownVisit base key).filterMap Visit.entry? =
      (node.ownSite key).map (Site.entry style base) := by
  cases node <;> rfl

/-- The report of a wrapper is no entry. -/
theorem Group.filterMap_variantVisit (variants : Group) :
    (Group.variantVisit variants).filterMap Visit.entry? = [] := by
  unfold Group.variantVisit
  split <;> rfl

variable {style : PathStyle}

mutual

theorem Node.filterMap_visits (base : String) : (node : Node) →
    (node.visits style base).filterMap Visit.entry? = node.sites.map (Site.entry style base)
  | .token _ | .raw _ => rfl
  | .group children => by
      rw [Node.visits, Node.sites, List.filterMap_append, List.filterMap_append,
        Group.filterMap_themeVisits base children, Group.filterMap_colorVisits _ children,
        Group.filterMap_restVisits base children, List.map_append, List.map_append,
        Site.map_entry_under]
      rfl

theorem Group.filterMap_themeVisits (base : String) : (children : List (String × Node)) →
    (Group.themeVisits style base children).filterMap Visit.entry? =
      (Group.themeSites children).map (Site.entry style base)
  | [] => rfl
  | (key, node) :: rest => by
      rw [Group.themeVisits, Group.themeSites]
      by_cases hkey : key = themeKey
      · rw [if_pos hkey, if_pos hkey, Node.filterMap_wrapperVisits base node]
      · rw [if_neg hkey, if_neg hkey, Group.filterMap_themeVisits base rest]

theorem Node.filterMap_wrapperVisits (base : String) : (node : Node) →
    (node.wrapperVisits style base).filterMap Visit.entry? =
      node.wrapperSites.map (Site.entry style base)
  | .token _ | .raw _ => rfl
  | .group variants => by
      rw [Node.wrapperVisits, Node.wrapperSites, List.filterMap_append,
        Group.filterMap_variantVisit, List.nil_append, Group.filterMap_firstVisits base variants]

theorem Group.filterMap_firstVisits (base : String) : (variants : List (String × Node)) →
    (Group.firstVisits style base variants).filterMap Visit.entry? =
      (Group.firstSites variants).map (Site.entry style base)
  | [] => rfl
  | (variant, body) :: _ => by
      rw [Group.firstVisits, Group.firstSites, Node.filterMap_bodyVisits _ body]
      exact (Site.map_entry_under style base (.theme variant) body.bodySites).symm

theorem Node.filterMap_bodyVisits (base : String) : (node : Node) →
    (node.bodyVisits style base).filterMap Visit.entry? =
      node.bodySites.map (Site.entry style base)
  | .token _ | .raw _ => rfl
  | .group children => by
      rw [Node.bodyVisits, Node.bodySites, Group.filterMap_colorVisits base children]

theorem Group.filterMap_colorVisits (base : String) : (children : List (String × Node)) →
    (Group.colorVisits style base children).filterMap Visit.entry? =
      (Group.colorSites children).map (Site.entry style base)
  | [] => rfl
  | (key, node) :: rest => by
      rw [Group.colorVisits, Group.colorSites]
      by_cases hkey : key = colorKey
      · rw [if_pos hkey, if_pos hkey, Node.filterMap_visits base node]
      · rw [if_neg hkey, if_neg hkey, Group.filterMap_colorVisits base rest]

theorem Group.filterMap_restVisits (base : String) : (children : List (String × Node)) →
    (Group.restVisits style base children).filterMap Visit.entry? =
      (Group.restSites children).map (Site.entry style base)
  | [] => rfl
  | (key, node) :: rest => by
      rw [Group.restVisits, Group.restSites, List.filterMap_append, List.map_append,
        Group.filterMap_restVisits base rest]
      congr 1
      by_cases htheme : key = themeKey
      · rw [if_pos htheme, if_pos htheme]
        rfl
      · rw [if_neg htheme, if_neg htheme, List.filterMap_append, List.map_append,
          Node.filterMap_ownVisit style base key node]
        congr 1
        by_cases hcolor : key = colorKey
        · rw [if_pos hcolor, if_pos hcolor]
          rfl
        · rw [if_neg hcolor, if_neg hcolor, Node.filterMap_visits _ node]
          exact (Site.map_entry_under style base (.child key) node.sites).symm

end

/-- The entries of a walk are those of the sites, in the same order. -/
theorem Group.entries_eq_map_sites (style : PathStyle) (base : String) (g : Group) :
    g.entries style base = g.sites.map (Site.entry style base) :=
  Node.filterMap_visits base (.group g)

end DesignTokens
