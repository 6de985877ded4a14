import DesignTokens.Proofs.Naming
import DesignTokens.Proofs.Tree.Leaves
import DesignTokens.Proofs.Tree.Reading
import DesignTokens.Proofs.Tree.Walk
import Mathlib.Data.List.Perm.Basic

/-!
# What a walk covers

In a tree without theme wrappers a walk goes through every group. It emits every token once, with
its keys joined by hyphens, except for tokens that stand under the key of theme wrappers themselves
(`walk_covers_leaves`). So it loses a token exactly when there is such a one:
`token_under_theme_lost`.
-/

namespace DesignTokens

/-- The entry that a leaf has below a path when its keys are joined by hyphens. -/
def Leaf.entry (base : String) (l : Leaf) : Entry :=
  ⟨joinPath base ("-".intercalate l.keys), l.key, l.token⟩

namespace Group

/-- No group of the tree stands under the key of theme wrappers. -/
def WithoutWrappers (g : Group) : Prop :=
  EveryChild (fun key node => key = themeKey → node.children? = none) g

/-- No key in the tree is empty. -/
def WithoutEmptyKeys (g : Group) : Prop :=
  EveryChild (fun key _ => key ≠ "") g

variable {g : Group} {l : Leaf}

/-- Under the key of theme wrappers stands no group, at whatever depth. -/
theorem WithoutWrappers.children? (hg : g.WithoutWrappers) {keys : List String} {node : Node}
    (hat : g.at? (keys ++ [themeKey]) = some node) : node.children? = none :=
  hg.of_at? hat rfl

theorem WithoutWrappers.singleVariants (hg : g.WithoutWrappers) : g.SingleVariants :=
  fun _ _ hat => nomatch hg.children? hat

/-- In a tree without wrappers no group that a leaf stands in has their key. -/
theorem WithoutWrappers.not_mem_above (hwrappers : g.WithoutWrappers) (hg : g.WellFormed)
    (hl : l ∈ leaves g) : themeKey ∉ l.above := by
  intro hmem
  obtain ⟨before, below, hsplit⟩ := List.append_of_mem hmem
  have hat := (mem_leaves_iff hg).1 hl
  rw [Leaf.keys, hsplit, List.append_assoc, List.cons_append] at hat
  obtain ⟨child, hchild, hbelow⟩ := exists_at?_of_split hat
  have hend : child.at? (below ++ [l.key]) = none :=
    Node.at?_of_children?_eq_none (hwrappers.children? hchild) (by simp)
  cases hend.symm.trans hbelow

/-- In a tree without empty keys no key of a leaf is empty. -/
theorem WithoutEmptyKeys.not_mem_keys (hkeys : g.WithoutEmptyKeys) (hg : g.WellFormed)
    (hl : l ∈ leaves g) : "" ∉ l.keys :=
  fun hmem => EveryChild.of_mem_keys hkeys ((mem_leaves_iff hg).1 hl) hmem rfl

end Group

/-- Steps that pass no theme wrapper are told by their keys. -/
theorem Step.map_child_flatMap_keys {steps : List Step} (h : themeKey ∉ steps.flatMap Step.keys) :
    (steps.flatMap Step.keys).map Step.child = steps := by
  induction steps with
  | nil => rfl
  | cons step rest ih =>
      rw [List.flatMap_cons, List.mem_append, not_or] at h
      rw [List.flatMap_cons, List.map_append, ih h.2]
      cases step with
      | child key => rfl
      | theme variant => exact absurd List.mem_cons_self h.1

namespace Group

variable {g : Group} {style : PathStyle} {base : String}

/-- In a tree without wrappers a walk reaches the leaves that do not stand under their key. -/
theorem WithoutWrappers.mem_sites_iff (hwrappers : g.WithoutWrappers) (hg : g.WellFormed)
    {s : Site} : s ∈ g.sites ↔ ∃ l ∈ leaves g, l.key ≠ themeKey ∧ l.site [] = s := by
  constructor
  · intro hs
    obtain ⟨havoids, hat⟩ := (hwrappers.singleVariants.mem_sites_iff_at? hg).1 hs
    let l : Leaf := ⟨s.above.flatMap Step.keys, s.key, s.token⟩
    have hl : l ∈ leaves g := (mem_leaves_iff hg).2 hat
    refine ⟨l, hl, havoids.2, ?_⟩
    show (⟨(s.above.flatMap Step.keys).map .child, s.key, s.token⟩ : Site) = s
    rw [Step.map_child_flatMap_keys (hwrappers.not_mem_above hg hl)]
  · intro hleaf
    obtain ⟨l, hl, hkey, rfl⟩ := hleaf
    have hkeys : themeKey ∉ l.keys := by
      rw [Leaf.keys, List.mem_append, List.mem_singleton, not_or]
      exact ⟨hwrappers.not_mem_above hg hl, Ne.symm hkey⟩
    have hhere : g.follow? [] = some g := rfl
    exact site_of_leaf hg hhere hg hl hkeys

/-- In a tree without wrappers a walk reaches once every leaf that does not stand under their
key. -/
theorem WithoutWrappers.sites_perm (hwrappers : g.WithoutWrappers) (hg : g.WellFormed) :
    g.sites.Perm (((leaves g).filter fun l => l.key ≠ themeKey).map (Leaf.site [])) := by
  have hsites : g.sites.Nodup := hg.nodup_places.of_map
  have hleaves : (((leaves g).filter fun l => l.key ≠ themeKey).map (Leaf.site [])).Nodup :=
    ((nodup_leaves g hg).filter _).map (Leaf.site_injective [])
  refine (List.perm_ext_iff_of_nodup hsites hleaves).2 fun s => ?_
  rw [hwrappers.mem_sites_iff hg]
  simp only [List.mem_map, List.mem_filter, decide_eq_true_eq, and_assoc]

/-- The entries of a walk through such a tree join the keys of the leaves. -/
theorem WithoutWrappers.entries_perm (hwrappers : g.WithoutWrappers) (hkeys : g.WithoutEmptyKeys)
    (hg : g.WellFormed) :
    (g.entries style base).Perm
      (((leaves g).filter fun l => l.key ≠ themeKey).map (Leaf.entry base)) := by
  rw [entries_eq_map_sites]
  refine ((hwrappers.sites_perm hg).map (Site.entry style base)).trans (.of_eq ?_)
  rw [List.map_map]
  refine List.map_congr_left fun l hl => ?_
  have hmem := hkeys.not_mem_keys hg (List.mem_filter.1 hl).1
  show (⟨(l.site []).path style base, l.key, l.token⟩ : Entry) = l.entry base
  rw [Leaf.path_site, List.foldl_nil, Leaf.path, foldl_joinPath (by simp [Leaf.keys]) (Or.inr hmem)]
  rfl

end Group

/-- A list is a rearrangement of the chosen elements of another one. It is one of all of them
exactly when all are chosen. -/
theorem perm_map_iff_of_filter {α β : Type} {f : α → β} {p : α → Bool} {l : List α} {m : List β}
    (h : m.Perm ((l.filter p).map f)) : m.Perm (l.map f) ↔ ∀ a ∈ l, p a := by
  rw [← List.filter_eq_self]
  constructor
  · intro hall
    have hlength : ((l.filter p).map f).length = (l.map f).length := (h.symm.trans hall).length_eq
    rw [List.length_map, List.length_map] at hlength
    exact List.filter_sublist.eq_of_length hlength
  · intro hchosen
    rwa [hchosen] at h

/-- In the tree of a document without theme wrappers and empty keys, a walk that succeeds emits once
every token that does not stand under the key of theme wrappers, with the path that joins the keys
leading to it. It emits all tokens of the tree in this way exactly when none stands under that
key. -/
theorem walk_covers_leaves {document : Fields Json} (hdocument : (Json.obj document).WellFormed)
    (hwrappers : Group.WithoutWrappers (Group.ofFields document))
    (hkeys : Group.WithoutEmptyKeys (Group.ofFields document)) {style : PathStyle} {base : String}
    {es : List Entry} (hwalk : (Group.walk style base (Group.ofFields document)).result = .ok es) :
    let leaves := Group.leaves (Group.ofFields document)
    es.Perm ((leaves.filter fun l => l.key ≠ themeKey).map (Leaf.entry base)) ∧
      (es.Perm (leaves.map (Leaf.entry base)) ↔ ∀ l ∈ leaves, l.key ≠ themeKey) := by
  intro leaves
  obtain ⟨rfl, -⟩ := Group.walk_eq_ok_iff.1 hwalk
  have hperm : (Group.entries style base (Group.ofFields document)).Perm
      ((leaves.filter fun l => l.key ≠ themeKey).map (Leaf.entry base)) :=
    hwrappers.entries_perm hkeys (Group.wellFormed_ofFields hdocument)
  refine ⟨hperm, (perm_map_iff_of_filter hperm).trans ?_⟩
  exact forall₂_congr fun l _ => decide_eq_true_iff

/-! ## A token under the key of theme wrappers -/

namespace SyntaxTheme

/-- A document with a color and a token that stands under the key of theme wrappers. -/
def document : Fields Json :=
  [("syntax", .obj [("theme", .obj [("value", .str "dark-plus"), ("type", .str "string")])]),
   ("color", .obj [("text", .obj [("value", .str "#d4d4d4"), ("type", .str "color")])])]

theorem wellFormed : (Json.obj document).WellFormed := by
  simp [document, Json.WellFormed, Json.FieldsWellFormed, Fields.WellFormed]

/-- The tree of the document. -/
theorem tree_eq : Group.ofFields document =
    [("syntax", .group [("theme", .token ⟨.str "dark-plus", .str "string", .null, []⟩)]),
     ("color", .group [("text", .token ⟨.str "#d4d4d4", .str "color", .null, []⟩)])] := rfl

theorem withoutWrappers : Group.WithoutWrappers (Group.ofFields document) := by
  simp [tree_eq, Group.WithoutWrappers, Group.EveryChild, Node.EveryChild, Node.children?, themeKey]

theorem withoutEmptyKeys : Group.WithoutEmptyKeys (Group.ofFields document) := by
  simp [tree_eq, Group.WithoutEmptyKeys, Group.EveryChild, Node.EveryChild]

/-- A walk emits the color only. -/
theorem walk_eq : (Group.walk .collapsed "" (Group.ofFields document)).result =
    .ok [⟨"color-text", "text", ⟨.str "#d4d4d4", .str "color", .null, []⟩⟩] := rfl

end SyntaxTheme

open SyntaxTheme in
/-- What a walk covers in a tree with a color and a token under the key of theme wrappers. -/
theorem syntax_theme_covered :
    (Json.obj document).WellFormed ∧ Group.WithoutWrappers (Group.ofFields document) ∧
      Group.WithoutEmptyKeys (Group.ofFields document) ∧
      ∃ es, (Group.walk .collapsed "" (Group.ofFields document)).result = .ok es ∧
        let leaves := Group.leaves (Group.ofFields document)
        es.Perm ((leaves.filter fun l => l.key ≠ themeKey).map (Leaf.entry "")) ∧
          (es.Perm (leaves.map (Leaf.entry "")) ↔ ∀ l ∈ leaves, l.key ≠ themeKey) :=
  ⟨wellFormed, withoutWrappers, withoutEmptyKeys, _, walk_eq,
    walk_covers_leaves wellFormed withoutWrappers withoutEmptyKeys walk_eq⟩

open SyntaxTheme in
/-- A walk does not emit every token of every tree without theme wrappers and empty keys: a token
that stands under the key of theme wrappers is passed over. -/
theorem token_under_theme_lost :
    ¬ ∀ (document : Fields Json) (style : PathStyle) (base : String) (es : List Entry),
      (Json.obj document).WellFormed → Group.WithoutWrappers (Group.ofFields document) →
        Group.WithoutEmptyKeys (Group.ofFields document) →
        (Group.walk style base (Group.ofFields document)).result = .ok es →
          es.Perm ((Group.leaves (Group.ofFields document)).map (Leaf.entry base)) := by
  intro h
  have hperm := h document .collapsed "" _ wellFormed withoutWrappers withoutEmptyKeys walk_eq
  -- One token is emitted, and the tree has two.
  cases hperm.length_eq

end DesignTokens
