import DesignTokens.Proofs.Naming
import DesignTokens.Proofs.Tree.Leaves
import DesignTokens.Proofs.Tree.Reading

/-!
# Dotted paths

Flattening lists the leaves of a tree by the dots between their keys (`tokensBelow_eq`), in the order
of the keys of each group (`pairwise_leaves`). When no key is empty or has a dot, a dotted path is
read back as the keys that it joins (`dottedKeys_intercalate`). Then no leaf hides another one, and
flattening and lookup are two views of one map: `flatten_agrees_with_lookup`.
-/

namespace DesignTokens

/-! ## Reading dotted paths -/

/-- The key is one step of a dotted path: it is not empty and has no dot. -/
structure DotlessKey (key : String) : Prop where
  ne_empty : key ≠ ""
  dot : '.' ∉ key.toList

instance (key : String) : Decidable (DotlessKey key) :=
  decidable_of_iff (key ≠ "" ∧ '.' ∉ key.toList) ⟨fun h => ⟨h.1, h.2⟩, fun h => ⟨h.1, h.2⟩⟩

namespace Group

variable {keys : List String}

/-- Some key is named by every dotted path. -/
theorem dottedKeys_ne_nil (path : String) : dottedKeys path ≠ [] :=
  mt List.map_eq_nil_iff.1 (List.splitOn_ne_nil _ _)

/-- A dotted path joins the keys that it names. -/
theorem intercalate_dottedKeys (path : String) : ".".intercalate (dottedKeys path) = path := by
  have hparts : (dottedKeys path).map String.toList = path.toList.splitOn '.' := by
    simp [dottedKeys, Function.comp_def]
  rw [← String.toList_inj, String.toList_intercalate, hparts]
  exact List.intercalate_splitOn '.'

/-- Keys without dots are the ones that their dotted path names. -/
theorem dottedKeys_intercalate (hkeys : keys ≠ []) (h : ∀ key ∈ keys, '.' ∉ key.toList) :
    dottedKeys (".".intercalate keys) = keys := by
  have hparts : (".".intercalate keys).toList.splitOn '.' = keys.map String.toList :=
    splitOn_intercalate hkeys h
  rw [dottedKeys, hparts, List.map_map]
  simp [Function.comp_def]

end Group

/-! ## The leaves that flattening lists -/

namespace Leaf

variable {l m : Leaf}

theorem keys_ne_nil (l : Leaf) : l.keys ≠ [] := by
  simp [keys]

/-- The keys of a leaf with dots between them. -/
def dotted (l : Leaf) : String :=
  ".".intercalate l.keys

/-- The path of a leaf below a dotted path, extended by one key after the other. -/
def dottedBelow (path : String) (l : Leaf) : String :=
  l.keys.foldl joinDotted path

/-- From the root, a leaf whose keys are not empty has the path that joins them. -/
theorem dottedBelow_root (hkeys : "" ∉ l.keys) : l.dottedBelow "" = l.dotted :=
  foldl_joinWith l.keys_ne_nil (Or.inr hkeys)

end Leaf

mutual

theorem Node.tokensFrom_eq (path key : String) : (node : Node) →
    node.tokensFrom (joinDotted path key) =
      (node.leaves key).map fun l => (l.dottedBelow path, l.token)
  | .token _ | .raw _ => rfl
  | .group children => by
      rw [Node.tokensFrom, Node.leaves, Group.tokensBelow_eq (joinDotted path key) children,
        List.map_map]
      rfl

/-- The tokens below a dotted path are the leaves, in the same order. -/
theorem Group.tokensBelow_eq (path : String) : (g : List (String × Node)) →
    Group.tokensBelow path g = (Group.leaves g).map fun l => (l.dottedBelow path, l.token)
  | [] => rfl
  | (key, node) :: rest => by
      rw [Group.tokensBelow, Group.leaves, List.map_append, Node.tokensFrom_eq path key node,
        Group.tokensBelow_eq path rest]

end

/-! ## The order of leaves -/

namespace Group

/-- The two lists of keys lead through the same groups up to one in which the first list goes on
with an earlier key than the second one. -/
def KeysBefore (g : Group) (keys others : List String) : Prop :=
  ∃ above h first second rest more, g.at? above = some (.group h) ∧
    [first, second].Sublist (Fields.names h) ∧
    keys = above ++ first :: rest ∧ others = above ++ second :: more

namespace KeysBefore

variable {g h : Group} {key : String} {node : Node} {keys others : List String}

/-- What holds in a child group holds behind its key. -/
theorem under (hchild : g.child? key = some (.group h)) (hkeys : KeysBefore h keys others) :
    g.KeysBefore (key :: keys) (key :: others) := by
  obtain ⟨above, k, first, second, rest, more, hat, hnames, rfl, rfl⟩ := hkeys
  refine ⟨key :: above, k, first, second, rest, more, ?_, hnames, rfl, rfl⟩
  rw [at?_eq, Node.at?_group_cons, show Fields.get? g key = some (.group h) from hchild]
  exact hat

/-- A new child in front moves no other one. -/
theorem cons (hkey : key ∉ Fields.names g) (hkeys : KeysBefore g keys others) :
    KeysBefore ((key, node) :: g) keys others := by
  obtain ⟨above, k, first, second, rest, more, hat, hnames, hfirst, hsecond⟩ := hkeys
  cases above with
  | nil =>
      rw [at?_eq, Node.at?_nil] at hat
      cases hat
      exact ⟨[], (key, node) :: g, first, second, rest, more, Node.at?_nil _,
        hnames.cons key, hfirst, hsecond⟩
  | cons step above =>
      refine ⟨step :: above, k, first, second, rest, more, ?_, hnames, hfirst, hsecond⟩
      rw [at?_eq, Node.at?_group_cons] at hat ⊢
      obtain ⟨child, hchild, -⟩ := Option.bind_eq_some_iff.1 hat
      have hne : key ≠ step := fun heq => hkey (heq ▸ Fields.mem_names_of_get? hchild)
      rw [Fields.get?_cons_of_ne hne]
      exact hat

/-- Keys that begin with the first key of a group stand before those that begin with another one. -/
theorem of_head? {key' : String} {g : Group} (hkey' : key' ∈ Fields.names g)
    (hkeys : keys.head? = some key) (hothers : others.head? = some key') :
    KeysBefore ((key, node) :: g) keys others := by
  obtain ⟨rest, rfl⟩ := List.head?_eq_some_iff.1 hkeys
  obtain ⟨more, rfl⟩ := List.head?_eq_some_iff.1 hothers
  exact ⟨[], (key, node) :: g, key, key', rest, more, Node.at?_nil _,
    (List.singleton_sublist.2 hkey').cons_cons key, rfl, rfl⟩

end KeysBefore

end Group

mutual

theorem Node.pairwise_leaves {g : Group} {key : String} : (node : Node) → node.WellFormed →
    g.child? key = some node → (node.leaves key).Pairwise fun l m => g.KeysBefore l.keys m.keys
  | .token _, _, _ => List.pairwise_singleton _ _
  | .raw _, _, _ => List.Pairwise.nil
  | .group children, hnode, hchild =>
      List.pairwise_map.2 ((Group.pairwise_leaves children hnode).imp fun hkeys =>
        hkeys.under hchild)

/-- The leaves of a tree come in the order of keys, depth first. -/
theorem Group.pairwise_leaves : (g : List (String × Node)) → (Node.group g).WellFormed →
    (Group.leaves g).Pairwise fun l m => Group.KeysBefore g l.keys m.keys
  | [], _ => List.Pairwise.nil
  | (key, node) :: rest, hg => by
      have hfresh : key ∉ Fields.names rest := (Fields.wellFormed_cons.1 hg.keys).1
      rw [Group.leaves]
      refine List.pairwise_append.2 ⟨?_, ?_, fun l hl m hm => ?_⟩
      · exact Node.pairwise_leaves node (hg.child List.mem_cons_self) (Fields.get?_cons_self _ _ _)
      · exact (Group.pairwise_leaves rest hg.tail).imp fun hkeys => hkeys.cons hfresh
      · obtain ⟨other, child, hmem, hother⟩ := Group.mem_leaves_iff_child.1 hm
        exact .of_head? (List.mem_map_of_mem (f := Prod.fst) hmem)
          (Group.head?_keys_of_mem hl) (Group.head?_keys_of_mem hother)

end

/-! ## Flattening and lookup -/

namespace Group

/-- No key in the tree is empty or has a dot. -/
def DotlessKeys (g : Group) : Prop :=
  EveryChild (fun key _ => DotlessKey key) g

variable {g : Group} {l m : Leaf} {path : String} {t : Token}

/-- Leaves that are reached by the same keys are the same. -/
theorem leaf_eq_of_keys_eq (hg : g.WellFormed) (hl : l ∈ leaves g) (hm : m ∈ leaves g)
    (h : l.keys = m.keys) : l = m := by
  have htoken := (mem_leaves_iff hg).1 hl
  rw [h, (mem_leaves_iff hg).1 hm] at htoken
  obtain ⟨above, key, t⟩ := l
  obtain ⟨above', key', t'⟩ := m
  obtain ⟨rfl, hkey⟩ := List.append_inj' h rfl
  cases hkey
  cases htoken
  rfl

/-- The keys that lead to a token are those of a leaf. -/
theorem exists_leaf_of_at? (hg : g.WellFormed) {keys : List String} (hkeys : keys ≠ [])
    (hat : g.at? keys = some (.token t)) : ∃ l ∈ leaves g, l.keys = keys ∧ l.token = t := by
  have hsplit : keys.dropLast ++ [keys.getLast hkeys] = keys := List.dropLast_append_getLast hkeys
  refine ⟨⟨keys.dropLast, keys.getLast hkeys, t⟩, (mem_leaves_iff hg).2 ?_, hsplit, rfl⟩
  rw [Leaf.keys, hsplit]
  exact hat

namespace DotlessKeys

variable (hkeys : g.DotlessKeys) (hg : g.WellFormed)

include hkeys hg

theorem of_leaf (hl : l ∈ leaves g) : ∀ key ∈ l.keys, DotlessKey key := fun _ hkey =>
  EveryChild.of_mem_keys hkeys ((mem_leaves_iff hg).1 hl) hkey

/-- The dotted path of a leaf names its keys. -/
theorem dottedKeys_dotted (hl : l ∈ leaves g) : dottedKeys l.dotted = l.keys :=
  dottedKeys_intercalate l.keys_ne_nil fun key hkey => (hkeys.of_leaf hg hl key hkey).dot

/-- The dotted paths of leaves are distinct. -/
theorem nodup_dotted : ((leaves g).map Leaf.dotted).Nodup := by
  refine List.Nodup.map_on (fun l hl m hm hdotted => ?_) (nodup_leaves g hg)
  refine leaf_eq_of_keys_eq hg hl hm ?_
  rw [← hkeys.dottedKeys_dotted hg hl, hdotted, hkeys.dottedKeys_dotted hg hm]

/-- Flattening such a tree gives its leaves by their dotted paths. -/
theorem flatten_eq : g.flatten "" = (leaves g).map fun l => (l.dotted, l.token) := by
  have hpairs : tokensBelow "" g = (leaves g).map fun l => (l.dotted, l.token) := by
    rw [tokensBelow_eq]
    refine List.map_congr_left fun l hl => ?_
    have hempty : "" ∉ l.keys := fun hmem => (hkeys.of_leaf hg hl "" hmem).ne_empty rfl
    rw [Leaf.dottedBelow_root hempty]
  rw [flatten, hpairs]
  refine Fields.ofPairs_eq_self ?_
  rw [Fields.wellFormed_iff, Fields.names, List.map_map]
  exact hkeys.nodup_dotted hg

theorem names_flatten : (g.flatten "").names = (leaves g).map Leaf.dotted := by
  rw [hkeys.flatten_eq hg, Fields.names, List.map_map]
  rfl

/-- A dotted path has a token in the flattened tree exactly when it leads to that token. -/
theorem get?_flatten_iff : (g.flatten "").get? path = some t ↔ g.get? path = some (.token t) := by
  have hwf : (g.flatten "").WellFormed := by
    rw [Fields.wellFormed_iff, hkeys.names_flatten hg]
    exact hkeys.nodup_dotted hg
  rw [hwf.get?_eq_some_iff, hkeys.flatten_eq hg, List.mem_map, get?]
  constructor
  · intro hlisted
    obtain ⟨l, hl, hpair⟩ := hlisted
    obtain ⟨rfl, rfl⟩ := Prod.mk.inj hpair
    rw [hkeys.dottedKeys_dotted hg hl]
    exact (mem_leaves_iff hg).1 hl
  · intro hat
    obtain ⟨l, hl, hnamed, rfl⟩ := exists_leaf_of_at? hg (dottedKeys_ne_nil path) hat
    refine ⟨l, hl, Prod.ext ?_ rfl⟩
    rw [Leaf.dotted, hnamed, intercalate_dottedKeys]

end DotlessKeys

end Group

/-- When no key of a tree is empty or has a dot, a dotted path has a token in the flattened tree
exactly when lookup by that path gives the token. The paths of the flattened tree are those of the
leaves, each of them once, and come in the order of keys, depth first. -/
theorem flatten_agrees_with_lookup {g : Group} (hg : g.WellFormed) (hkeys : g.DotlessKeys) :
    (∀ path t, (g.flatten "").get? path = some t ↔ g.get? path = some (.token t)) ∧
      (∀ path, path ∈ (g.flatten "").names ↔ ∃ t, g.get? path = some (.token t)) ∧
      (g.flatten "").names = (Group.leaves g).map Leaf.dotted ∧
      (g.flatten "").names.Nodup ∧
      (g.flatten "").names.Pairwise fun path other =>
        g.KeysBefore (Group.dottedKeys path) (Group.dottedKeys other) := by
  have hget (path : String) (t : Token) :
      (g.flatten "").get? path = some t ↔ g.get? path = some (.token t) :=
    hkeys.get?_flatten_iff hg
  have hnames := hkeys.names_flatten hg
  refine ⟨hget, fun path => ?_, hnames, ?_, ?_⟩
  · simp only [← hget]
    exact ⟨Fields.exists_get?_of_mem_names, fun ⟨_, h⟩ => Fields.mem_names_of_get? h⟩
  · rw [hnames]
    exact hkeys.nodup_dotted hg
  · rw [hnames, List.pairwise_map]
    refine (Group.pairwise_leaves g hg).imp_of_mem fun hl hm hbefore => ?_
    rw [hkeys.dottedKeys_dotted hg hl, hkeys.dottedKeys_dotted hg hm]
    exact hbefore

/-- A key with a dot is listed, but no dotted path leads to it. -/
example :
    let g : Group := [("line.height", .token ⟨.str "1.5", .str "number", .null, []⟩)]
    (g.flatten "").names = ["line.height"] ∧ (g.get? "line.height").isNone :=
  ⟨rfl, rfl⟩

namespace SpacingScale

/-- A document with two lengths in a group, a note, and a length beside them. -/
def document : Fields Json :=
  [("spacing", .obj [("small", .obj [("value", .str "4px"), ("type", .str "dimension")]),
      ("large", .obj [("value", .str "16px"), ("type", .str "dimension")])]),
   ("note", .str "in pixels"),
   ("gap", .obj [("value", .str "8px"), ("type", .str "dimension")])]

/-- The tree of the document. -/
def tree : Group :=
  Group.ofFields document

theorem wellFormed : tree.WellFormed := by
  refine Group.wellFormed_ofFields ?_
  simp [document, Json.WellFormed, Json.FieldsWellFormed, Fields.WellFormed]

theorem dotlessKeys : tree.DotlessKeys := by
  have hdotless : DotlessKey "spacing" ∧ DotlessKey "small" ∧ DotlessKey "large" ∧
      DotlessKey "note" ∧ DotlessKey "gap" := by decide
  simp [tree, document, Group.DotlessKeys, Group.ofFields, Node.ofJson, Token.ofFields?,
    Fields.get?, Token.valueText?, Json.str?, Group.EveryChild, Node.EveryChild, hdotless]

end SpacingScale

open SpacingScale in
/-- A length in the group of that tree is listed under the dotted path that leads to it. -/
theorem spacing_scale_flattened :
    tree.WellFormed ∧ tree.DotlessKeys ∧
      (tree.flatten "").names = ["spacing.small", "spacing.large", "gap"] ∧
      tree.get? "spacing.large" = some (.token ⟨.str "16px", .str "dimension", .null, []⟩) ∧
      tree.KeysBefore (Group.dottedKeys "spacing.small") (Group.dottedKeys "spacing.large") := by
  obtain ⟨hget, -, hnames, -, hbefore⟩ := flatten_agrees_with_lookup wellFormed dotlessKeys
  have hlisted : (tree.flatten "").names = ["spacing.small", "spacing.large", "gap"] := rfl
  rw [hlisted, List.pairwise_cons] at hbefore
  exact ⟨wellFormed, dotlessKeys, hlisted, (hget _ _).1 rfl, hbefore.1 _ List.mem_cons_self⟩

end DesignTokens
