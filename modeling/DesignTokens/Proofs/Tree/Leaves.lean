import DesignTokens.Proofs.Tree.SiteLookup
import Mathlib.Data.List.Nodup

/-!
# The leaves of a tree

`Group.leaves` lists every token that is reached through groups, with the keys that lead to it. It
knows nothing of theme wrappers and colors. In a well-formed tree the leaves are the tokens at the
ends of lists of keys (`mem_leaves_iff`), each listed once (`nodup_leaves`). A list of keys without
the one of theme wrappers leads a walk as it leads to a leaf: `follow?_map_child`.
-/

namespace DesignTokens

/-- A token of a tree: the keys of the groups that it stands in, and its own key. -/
structure Leaf where
  above : List String
  key : String
  token : Token

namespace Leaf

/-- The keys that lead to a leaf. -/
def keys (l : Leaf) : List String :=
  l.above ++ [l.key]

/-- The leaf seen from one group further up. -/
def under (key : String) (l : Leaf) : Leaf :=
  { l with above := key :: l.above }

/-- The path of a leaf below another path, extended by one key after the other. -/
def path (base : String) (l : Leaf) : String :=
  l.keys.foldl joinPath base

/-- The site that a walk reaches by the keys of a leaf of the group to which some steps lead. -/
def site (steps : List Step) (l : Leaf) : Site :=
  ⟨steps ++ l.above.map .child, l.key, l.token⟩

end Leaf

mutual

/-- The leaves of a node that stands under a key. -/
def Node.leaves (key : String) : Node → List Leaf
  | .token t => [⟨[], key, t⟩]
  | .group children => (Group.leaves children).map (Leaf.under key)
  | .raw _ => []

/-- The tokens of a group and of all groups below it, depth first in key order. -/
def Group.leaves : List (String × Node) → List Leaf
  | [] => []
  | (key, node) :: rest => node.leaves key ++ Group.leaves rest

end

namespace Leaf

variable {l m : Leaf} {key : String}

@[simp] theorem keys_under (key : String) (l : Leaf) : (l.under key).keys = key :: l.keys := rfl

theorem under_injective (key : String) : Function.Injective (under key) := by
  rintro ⟨above, name, t⟩ ⟨above', name', t'⟩ heq
  simpa [under] using heq

theorem site_injective (steps : List Step) : Function.Injective (site steps) := by
  rintro ⟨above, key, t⟩ ⟨above', key', t'⟩ heq
  have hchild : Function.Injective Step.child := fun _ _ h => Step.child.inj h
  simpa [site, (List.map_injective_iff.2 hchild).eq_iff] using heq

/-- The path of the site of a leaf is the path of the leaf below that of the steps before it. -/
theorem path_site (style : PathStyle) (base : String) (steps : List Step) (l : Leaf) :
    (l.site steps).path style base =
      l.path (steps.foldl (fun path step => joinPath path (step.segment style)) base) := by
  unfold Site.path path keys
  rw [site, List.foldl_append, List.foldl_append, List.foldl_map]
  rfl

end Leaf

/-! ## Lookup -/

namespace Group

variable {g h : Group} {l : Leaf}

/-- The leaves of a group are those of its children. -/
theorem mem_leaves_iff_child :
    l ∈ leaves g ↔ ∃ key node, (key, node) ∈ g ∧ l ∈ node.leaves key := by
  induction g with
  | nil => simp [leaves]
  | cons field rest ih =>
      obtain ⟨key, node⟩ := field
      simp only [leaves, List.mem_append, ih, List.mem_cons, Prod.mk.injEq, or_and_right, exists_or,
        and_assoc, exists_and_left, exists_eq_left]

/-- The leaves of a node begin with the key that it stands under. -/
theorem head?_keys_of_mem {node : Node} {key : String} (hl : l ∈ node.leaves key) :
    l.keys.head? = some key := by
  cases node with
  | token t =>
      obtain rfl := List.mem_singleton.1 hl
      rfl
  | raw x => cases hl
  | group children =>
      obtain ⟨m, -, rfl⟩ := List.mem_map.1 hl
      rfl

/-- A token that stands in the group itself is a leaf. -/
theorem mem_leaves_here_iff (hg : g.WellFormed) {key : String} {t : Token} :
    ⟨[], key, t⟩ ∈ leaves g ↔ g.child? key = some (.token t) := by
  have hchild : g.child? key = some (.token t) ↔ (key, Node.token t) ∈ g :=
    Fields.WellFormed.get?_eq_some_iff (Node.WellFormed.keys hg)
  rw [mem_leaves_iff_child, hchild]
  constructor
  · intro hleaf
    obtain ⟨name, node, hmem, hl⟩ := hleaf
    cases node with
    | token u =>
        cases List.mem_singleton.1 hl
        exact hmem
    | raw x => cases hl
    | group children =>
        obtain ⟨m, -, heq⟩ := List.mem_map.1 hl
        cases congrArg Leaf.above heq
  · intro hmem
    exact ⟨key, .token t, hmem, List.mem_singleton_self _⟩

/-- The leaves below a key are those of the group that stands under it. -/
theorem mem_leaves_under_iff (hg : g.WellFormed) {key : String} :
    l.under key ∈ leaves g ↔ ∃ h, g.child? key = some (.group h) ∧ l ∈ leaves h := by
  have hchild (h : Group) : g.child? key = some (.group h) ↔ (key, Node.group h) ∈ g :=
    Fields.WellFormed.get?_eq_some_iff (Node.WellFormed.keys hg)
  simp only [mem_leaves_iff_child (g := g), hchild]
  constructor
  · intro hleaf
    obtain ⟨name, node, hmem, hl⟩ := hleaf
    cases node with
    | token u => cases congrArg Leaf.above (List.mem_singleton.1 hl)
    | raw x => cases hl
    | group children =>
        have hname : some key = some name := head?_keys_of_mem hl
        obtain rfl := Option.some.inj hname
        obtain ⟨m, hm, heq⟩ := List.mem_map.1 hl
        exact ⟨children, hmem, Leaf.under_injective key heq ▸ hm⟩
  · intro hleaf
    obtain ⟨h, hmem, hl⟩ := hleaf
    exact ⟨key, .group h, hmem, List.mem_map_of_mem hl⟩

/-- A token is a leaf exactly when its keys lead to it. -/
theorem mem_leaves_iff (hg : g.WellFormed) :
    l ∈ leaves g ↔ g.at? l.keys = some (.token l.token) := by
  obtain ⟨above, key, t⟩ := l
  induction above generalizing g with
  | nil =>
      rw [mem_leaves_here_iff hg, at?_eq, Leaf.keys, List.nil_append, Node.at?_group_cons]
      simp only [Node.at?_nil, Option.bind_fun_some]
      rfl
  | cons first above ih =>
      rw [show (⟨first :: above, key, t⟩ : Leaf) = Leaf.under first ⟨above, key, t⟩ from rfl,
        mem_leaves_under_iff hg, Leaf.keys_under, at?_eq, Node.at?_group_cons,
        Option.bind_eq_some_iff]
      constructor
      · intro hleaf
        obtain ⟨h, hchild, hl⟩ := hleaf
        exact ⟨.group h, hchild, (ih (hg.group? (group?_eq_some_iff.2 hchild))).1 hl⟩
      · intro hleaf
        obtain ⟨node, hchild, hat⟩ := hleaf
        have hkeys : (⟨above, key, t⟩ : Leaf).keys ≠ [] := by simp [Leaf.keys]
        cases node with
        | token u => cases (Node.at?_of_children?_eq_none rfl hkeys).symm.trans hat
        | raw x => cases (Node.at?_of_children?_eq_none rfl hkeys).symm.trans hat
        | group h => exact ⟨h, hchild, (ih (hg.group? (group?_eq_some_iff.2 hchild))).2 hat⟩

end Group

/-! ## Every leaf is listed once -/

mutual

theorem Node.nodup_leaves (key : String) : (node : Node) → node.WellFormed →
    (node.leaves key).Nodup
  | .token _, _ => List.nodup_singleton _
  | .raw _, _ => List.nodup_nil
  | .group children, hg =>
      (Group.nodup_leaves children hg).map (Leaf.under_injective key)

/-- No leaf of a well-formed tree is listed twice. -/
theorem Group.nodup_leaves : (g : List (String × Node)) → (Node.group g).WellFormed →
    (Group.leaves g).Nodup
  | [], _ => List.nodup_nil
  | (key, node) :: rest, hg => by
      have hfresh : key ∉ Fields.names rest := (Fields.wellFormed_cons.1 hg.keys).1
      rw [Group.leaves]
      refine (Node.nodup_leaves key node (hg.child List.mem_cons_self)).append
        (Group.nodup_leaves rest hg.tail) fun l hl hrest => ?_
      -- A leaf of the rest begins with another key.
      obtain ⟨other, child, hmem, hother⟩ := Group.mem_leaves_iff_child.1 hrest
      have hkey : some key = some other :=
        (Group.head?_keys_of_mem hl).symm.trans (Group.head?_keys_of_mem hother)
      exact hfresh (Option.some.inj hkey ▸ List.mem_map_of_mem (f := Prod.fst) hmem)

end

/-! ## Leaves that a walk reaches -/

namespace Group

variable {g h : Group} {keys : List String} {steps : List Step}

/-- Keys that are not those of theme wrappers lead a walk to the group that stands there. -/
theorem follow?_map_child (hkeys : themeKey ∉ keys) (hat : g.at? keys = some (.group h)) :
    g.follow? (keys.map .child) = some h := by
  induction keys generalizing g with
  | nil =>
      rw [at?_eq, Node.at?_nil] at hat
      cases hat
      rfl
  | cons key keys ih =>
      rw [List.mem_cons, not_or] at hkeys
      rw [at?_eq, Node.at?_group_cons, Option.bind_eq_some_iff] at hat
      obtain ⟨node, hchild, hat⟩ := hat
      cases node with
      | token t => cases keys <;> simp at hat
      | raw x => cases keys <;> simp at hat
      | group first =>
          have hstep : g.descend? (.child key) = some first :=
            descend?_child_eq_some_iff.2 ⟨Ne.symm hkeys.1, group?_eq_some_iff.2 hchild⟩
          rw [List.map_cons, follow?, hstep, Option.bind_some]
          exact ih hkeys.2 hat

/-- Steps that follow others lead on from where these lead. -/
theorem follow?_append (g : Group) (steps more : List Step) :
    g.follow? (steps ++ more) = (g.follow? steps).bind fun h => h.follow? more := by
  induction steps generalizing g with
  | nil => rfl
  | cons step steps ih =>
      simp only [List.cons_append, follow?, Option.bind_assoc, ih]

/-- Where steps lead from a well-formed tree, the group is well formed. -/
theorem WellFormed.follow? (hg : g.WellFormed)
    (hsteps : g.follow? steps = some h) : h.WellFormed := by
  induction steps generalizing g with
  | nil =>
      cases hsteps
      exact hg
  | cons step steps ih =>
      obtain ⟨next, hstep, hrest⟩ := Option.bind_eq_some_iff.1 hsteps
      exact ih (hg.descend? hstep) hrest

/-- Steps lead to what stands at their keys. -/
theorem at?_keys_of_follow? (hsteps : g.follow? steps = some h) :
    g.at? (steps.flatMap Step.keys) = some (.group h) := by
  induction steps generalizing g with
  | nil =>
      cases hsteps
      exact Node.at?_nil _
  | cons step steps ih =>
      obtain ⟨first, hfirst, hrest⟩ := Option.bind_eq_some_iff.1 hsteps
      rw [at?_eq, List.flatMap_cons, Node.at?_append]
      exact Option.bind_eq_some_iff.2 ⟨_, at?_keys_of_descend? hfirst, ih hrest⟩

/-- Steps into the groups under keys lead to what stands at these keys. -/
theorem at?_of_follow?_map_child {keys : List String}
    (hsteps : g.follow? (keys.map .child) = some h) : g.at? keys = some (.group h) := by
  have hkeys : (keys.map Step.child).flatMap Step.keys = keys := by
    rw [List.flatMap_map]
    exact List.flatMap_singleton' keys
  rw [← hkeys]
  exact at?_keys_of_follow? hsteps

/-- A site is a leaf of the tree. -/
theorem leaf_of_site (hg : g.WellFormed) {s : Site} (hs : s ∈ g.sites) :
    ⟨s.above.flatMap Step.keys, s.key, s.token⟩ ∈ leaves g := by
  obtain ⟨h, hsteps, -, hchild⟩ := (mem_sites_iff hg).1 hs
  refine (mem_leaves_iff hg).2 ?_
  rw [Leaf.keys, at?_eq, Node.at?_append]
  refine Option.bind_eq_some_iff.2 ⟨_, at?_keys_of_follow? hsteps, ?_⟩
  simp only [Node.at?_group_cons, Node.at?_nil, Option.bind_fun_some]
  exact hchild

/-- What all keys of a tree meet, those that lead to a site meet. -/
theorem EveryChild.of_site_keys {p : String → Prop} (h : EveryChild (fun key _ => p key) g)
    (hg : g.WellFormed) {s : Site} (hs : s ∈ g.sites) : ∀ key ∈ s.keys, p key := fun _ hkey =>
  EveryChild.of_mem_keys h ((mem_leaves_iff hg).1 (leaf_of_site hg hs)) hkey

/-- A site that is not in a theme wrapper of the group begins with another key. -/
theorem head?_keys_of_site (hg : g.WellFormed) {s : Site} (hs : s ∈ g.sites)
    (habove : ∀ variant rest, s.above ≠ .theme variant :: rest) :
    s.keys.head? ≠ some themeKey := by
  obtain ⟨above, key, t⟩ := s
  cases above with
  | nil =>
      obtain ⟨-, -, hkey, -⟩ := (mem_sites_iff hg).1 hs
      intro heq
      exact hkey (Option.some.inj heq)
  | cons step rest =>
      cases step with
      | theme variant => exact absurd rfl (habove variant rest)
      | child name =>
          obtain ⟨h, hstep, -⟩ := (mem_sites_under_iff hg (s := ⟨rest, key, t⟩)).1 hs
          intro heq
          exact (descend?_child_eq_some_iff.1 hstep).1 (Option.some.inj heq)

/-- A walk reaches behind steps what it reaches in the group that they lead to. -/
theorem mem_sites_append_iff (hg : g.WellFormed) {above : List Step} {key : String} {t : Token} :
    ⟨steps ++ above, key, t⟩ ∈ g.sites ↔
      ∃ h, g.follow? steps = some h ∧ (⟨above, key, t⟩ : Site) ∈ h.sites := by
  rw [mem_sites_iff hg]
  dsimp only
  rw [follow?_append]
  constructor
  · intro hreached
    obtain ⟨k, hk, hkey, hchild⟩ := hreached
    obtain ⟨h, hh, hk⟩ := Option.bind_eq_some_iff.1 hk
    exact ⟨h, hh, (mem_sites_iff (hg.follow? hh)).2 ⟨k, hk, hkey, hchild⟩⟩
  · intro hreached
    obtain ⟨h, hh, hs⟩ := hreached
    obtain ⟨k, hk, hkey, hchild⟩ := (mem_sites_iff (hg.follow? hh)).1 hs
    exact ⟨k, Option.bind_eq_some_iff.2 ⟨h, hh, hk⟩, hkey, hchild⟩

/-- Where steps lead to a group, a walk reaches its leaves whose keys are not those of theme
wrappers. -/
theorem site_of_leaf (hg : g.WellFormed) {steps : List Step} (hsteps : g.follow? steps = some h)
    {l : Leaf} (hh : h.WellFormed) (hl : l ∈ leaves h) (hkeys : themeKey ∉ l.keys) :
    l.site steps ∈ g.sites := by
  rw [Leaf.keys, List.mem_append, not_or, List.mem_singleton] at hkeys
  obtain ⟨habove, hkey⟩ := hkeys
  have hat := (mem_leaves_iff hh).1 hl
  rw [Leaf.keys, at?_eq, Node.at?_append, Option.bind_eq_some_iff] at hat
  obtain ⟨node, hnode, htoken⟩ := hat
  cases node with
  | token t => simp at htoken
  | raw x => simp at htoken
  | group k =>
      refine (mem_sites_iff hg).2 ⟨k, ?_, Ne.symm hkey, ?_⟩
      · rw [Leaf.site, follow?_append, hsteps, Option.bind_some]
        exact follow?_map_child habove hnode
      · simp only [Node.at?_group_cons, Node.at?_nil, Option.bind_fun_some] at htoken
        exact htoken

end Group

end DesignTokens
