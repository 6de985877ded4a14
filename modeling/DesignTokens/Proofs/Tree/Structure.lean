import DesignTokens.Proofs.Fields
import DesignTokens.Tree.Basic

/-!
# The structure of trees

A list of keys steps from a group to a child (`at?_group_cons`) and leads nowhere from any other
node. `Node.WellFormed` says that no group repeats a key, as in the tree of a document.
`Group.EveryChild` says that all children at any depth meet a condition.
-/

namespace DesignTokens

namespace Node

/-- The kinds of nodes. -/
inductive Kind where
  | token
  | group
  | raw
  deriving DecidableEq

/-- The kind of a node. -/
def kind : Node → Kind
  | .token _ => .token
  | .group _ => .group
  | .raw _ => .raw

/-- No group in the node repeats a key. -/
inductive WellFormed : Node → Prop where
  | token (t : Token) : WellFormed (.token t)
  | raw (x : Json) : WellFormed (.raw x)
  | group {g : Group} : Fields.WellFormed g → (∀ key node, (key, node) ∈ g → WellFormed node) →
      WellFormed (.group g)

/-- The keys of a well-formed group are distinct. -/
theorem WellFormed.keys {g : Group} (h : (Node.group g).WellFormed) : Fields.WellFormed g := by
  cases h with
  | group hkeys _ => exact hkeys

/-- A child of a well-formed group is well formed. -/
theorem WellFormed.child {g : Group} {key : String} {node : Node}
    (h : (Node.group g).WellFormed) (hmem : (key, node) ∈ g) : node.WellFormed := by
  cases h with
  | group _ hchildren => exact hchildren key node hmem

/-- A well-formed group without its first child is well formed. -/
theorem WellFormed.tail {field : String × Node} {rest : Group}
    (h : (Node.group (field :: rest)).WellFormed) : (Node.group rest).WellFormed :=
  .group (Fields.wellFormed_cons.1 h.keys).2 fun _ _ hmem =>
    h.child (List.mem_cons_of_mem field hmem)

/-- What is found has children exactly when it is the group of them. -/
theorem bind_children?_eq_some_iff {node : Option Node} {h : Group} :
    node.bind Node.children? = some h ↔ node = some (.group h) := by
  cases node with
  | none => simp
  | some node => cases node <;> simp [Node.children?]

/-! ## Lists of keys -/

@[simp] theorem at?_nil (node : Node) : node.at? [] = some node := by
  cases node <;> rfl

@[simp] theorem at?_group_cons (g : Group) (key : String) (keys : List String) :
    (Node.group g).at? (key :: keys) =
      (Fields.get? g key).bind fun child => child.at? keys := rfl

@[simp] theorem at?_token_cons (t : Token) (key : String) (keys : List String) :
    (Node.token t).at? (key :: keys) = none := rfl

@[simp] theorem at?_raw_cons (x : Json) (key : String) (keys : List String) :
    (Node.raw x).at? (key :: keys) = none := rfl

/-- Keys lead nowhere from a node without children. -/
theorem at?_of_children?_eq_none {node : Node} {keys : List String} (hnode : node.children? = none)
    (hkeys : keys ≠ []) : node.at? keys = none := by
  cases keys with
  | nil => exact absurd rfl hkeys
  | cons key keys =>
      cases node with
      | token t => rfl
      | raw x => rfl
      | group g => cases hnode

/-- A list with a second part leads to where the second part leads from where the first one
leads. -/
theorem at?_append (node : Node) (keys below : List String) :
    node.at? (keys ++ below) = (node.at? keys).bind fun child => child.at? below := by
  induction keys generalizing node with
  | nil => simp
  | cons key keys ih =>
      cases node with
      | token t => simp
      | raw x => simp
      | group g =>
          cases hchild : Fields.get? g key with
          | none => simp [hchild]
          | some child => simp [hchild, ih]

/-- Where a node stands in a well-formed node, it is well formed. -/
theorem WellFormed.of_at? {node child : Node} {keys : List String} (h : node.WellFormed)
    (hat : node.at? keys = some child) : child.WellFormed := by
  induction keys generalizing node with
  | nil =>
      cases (at?_nil node).symm.trans hat
      exact h
  | cons key keys ih =>
      cases node with
      | token t => simp at hat
      | raw x => simp at hat
      | group g =>
          rw [at?_group_cons, Option.bind_eq_some_iff] at hat
          obtain ⟨first, hfirst, hrest⟩ := hat
          exact ih (h.child (Fields.mem_of_get? hfirst)) hrest

end Node

namespace Group

/-- No group in the tree repeats a key. -/
def WellFormed (g : Group) : Prop :=
  (Node.group g).WellFormed

theorem at?_eq (g : Group) (keys : List String) : g.at? keys = (Node.group g).at? keys := rfl

/-- A child is a group exactly when it is the group with these children. -/
theorem group?_eq_some_iff {g h : Group} {key : String} :
    g.group? key = some h ↔ g.child? key = some (.group h) :=
  Node.bind_children?_eq_some_iff

/-- A group that is a child of a well-formed group is well formed. -/
theorem WellFormed.group? {g h : Group} {key : String} (hg : g.WellFormed)
    (hchild : g.group? key = some h) : h.WellFormed :=
  Node.WellFormed.child hg (Fields.mem_of_get? (group?_eq_some_iff.1 hchild))

/-- Where something stands below a key, a node stands under that key. -/
theorem exists_at?_of_split {g : Group} {keys below : List String} {key : String} {node : Node}
    (h : g.at? (keys ++ key :: below) = some node) :
    ∃ child, g.at? (keys ++ [key]) = some child ∧ child.at? below = some node := by
  have hsplit : keys ++ key :: below = (keys ++ [key]) ++ below := by simp
  rw [hsplit, at?_eq, Node.at?_append] at h
  exact Option.bind_eq_some_iff.1 h

end Group

/-! ## Conditions on all children -/

mutual

/-- Every child below a node meets a condition on its key and itself. -/
def Node.EveryChild (p : String → Node → Prop) : Node → Prop
  | .group children => Group.EveryChild p children
  | _ => True

/-- Every child of a group and of all groups below it meets a condition on its key and itself. -/
def Group.EveryChild (p : String → Node → Prop) : List (String × Node) → Prop
  | [] => True
  | (key, node) :: rest => p key node ∧ node.EveryChild p ∧ Group.EveryChild p rest

end

/-- All children meet a condition when those of the group itself do and those below them. -/
theorem Group.everyChild_iff {p : String → Node → Prop} {g : Group} :
    Group.EveryChild p g ↔ ∀ key node, (key, node) ∈ g → p key node ∧ node.EveryChild p := by
  induction g with
  | nil => simp [EveryChild]
  | cons field rest ih =>
      obtain ⟨key, node⟩ := field
      simp only [EveryChild, ih, List.mem_cons, Prod.mk.injEq, ← and_assoc]
      constructor
      · rintro ⟨hnode, hrest⟩ name child (⟨rfl, rfl⟩ | hmem)
        · exact hnode
        · exact hrest name child hmem
      · exact fun h => ⟨h key node (Or.inl ⟨rfl, rfl⟩), fun name child hmem =>
          h name child (Or.inr hmem)⟩

/-- What all children of a node meet, the one at the end of a list of keys meets. -/
theorem Node.EveryChild.of_at? {p : String → Node → Prop} {node child : Node} {keys : List String}
    {key : String} (h : node.EveryChild p) (hat : node.at? (keys ++ [key]) = some child) :
    p key child := by
  induction keys generalizing node with
  | nil =>
      cases node with
      | token t => cases hat
      | raw x => cases hat
      | group g =>
          simp only [List.nil_append, Node.at?_group_cons, Node.at?_nil, Option.bind_fun_some]
            at hat
          exact (Group.everyChild_iff.1 h key child (Fields.mem_of_get? hat)).1
  | cons first keys ih =>
      cases node with
      | token t => cases hat
      | raw x => cases hat
      | group g =>
          rw [List.cons_append, Node.at?_group_cons, Option.bind_eq_some_iff] at hat
          obtain ⟨below, hbelow, hat⟩ := hat
          exact ih (Group.everyChild_iff.1 h first below (Fields.mem_of_get? hbelow)).2 hat

/-- What all children of a tree meet, the one at the end of a list of keys meets. -/
theorem Group.EveryChild.of_at? {p : String → Node → Prop} {g : Group} {child : Node}
    {keys : List String} {key : String} (h : Group.EveryChild p g)
    (hat : g.at? (keys ++ [key]) = some child) : p key child :=
  Node.EveryChild.of_at? (show (Node.group g).EveryChild p from h) hat

/-- What all keys of a tree meet, those that lead to a node meet. -/
theorem Group.EveryChild.of_mem_keys {p : String → Prop} {g : Group} {node : Node}
    {keys : List String} {key : String} (h : Group.EveryChild (fun key _ => p key) g)
    (hat : g.at? keys = some node) (hkey : key ∈ keys) : p key := by
  obtain ⟨before, below, rfl⟩ := List.append_of_mem hkey
  obtain ⟨child, hchild, -⟩ := Group.exists_at?_of_split hat
  exact h.of_at? hchild

/-- What all children of a group meet, those of a group among them meet. -/
theorem Group.EveryChild.group? {p : String → Node → Prop} {g h : Group} {key : String}
    (hg : Group.EveryChild p g) (hchild : g.group? key = some h) : Group.EveryChild p h :=
  (Group.everyChild_iff.1 hg key _ (Fields.mem_of_get? (Group.group?_eq_some_iff.1 hchild))).2

end DesignTokens
