import DesignTokens.Proofs.Target.UtilityCoverage

/-!
# How the references of utility themes are nested

What stands at a list of keys in the references to the tokens of a group is what stands for the node
at these keys in the group, and nothing when the key of theme wrappers is among them:
`Node.bind_at?_variableTree?`. So the references mirror the group (`Group.Mirrors`). Groups without
references are left out from below, and merging categories never makes an empty object, so no object
in a utility theme is empty: `variableTree_mirrors`.
-/

namespace DesignTokens

/-! ## Values without empty objects -/

namespace Json

mutual

/-- No object in the value is empty, the value itself included. -/
def Full : Json → Prop
  | .arr items => AllFull items
  | .obj fields => fields ≠ [] ∧ FieldsFull fields
  | _ => True

/-- No object in the values of a list is empty. -/
def AllFull : List Json → Prop
  | [] => True
  | x :: rest => x.Full ∧ AllFull rest

/-- No object in the values of fields is empty. -/
def FieldsFull : List (String × Json) → Prop
  | [] => True
  | (_, x) :: rest => x.Full ∧ FieldsFull rest

end

variable {fields : Fields Json} {x : Json}

theorem fieldsFull_iff : FieldsFull fields ↔ ∀ field ∈ fields, field.2.Full := by
  induction fields with
  | nil => simp [FieldsFull]
  | cons field rest ih => rw [FieldsFull, ih, List.forall_mem_cons]

/-- A value without empty objects has a leaf. -/
theorem Full.leaves_ne_nil (h : x.Full) : x.leaves ≠ [] := by
  induction x using objectInduction with
  | leaf x hx => cases x <;> first | exact List.cons_ne_nil _ _ | cases hx
  | object fields ih =>
      obtain ⟨hne, hfull⟩ := h
      obtain ⟨⟨key, first⟩, rest, rfl⟩ := List.exists_cons_of_ne_nil hne
      have hfirst := ih key first List.mem_cons_self hfull.1
      exact List.append_ne_nil_of_left_ne_nil hfirst _

/-- Fields without empty objects have no leaf only when there are none. -/
theorem FieldsFull.eq_nil_iff (h : FieldsFull fields) : fields = [] ↔ (obj fields).leaves = [] := by
  constructor
  · rintro rfl
    rfl
  · intro hleaves
    by_contra hne
    exact Full.leaves_ne_nil (x := .obj fields) ⟨hne, h⟩ hleaves

/-- Fields stay without empty objects when such a value is put under a name. -/
theorem FieldsFull.insert (h : FieldsFull fields) (name : String) (hx : x.Full) :
    FieldsFull (Fields.insert fields name x) := by
  refine fieldsFull_iff.2 fun field hfield => ?_
  rcases Fields.mem_insert hfield with rfl | hold
  · exact hx
  · exact fieldsFull_iff.1 h field hold

/-- Fields stay without empty objects when others without them are put in. -/
theorem FieldsFull.insertAll {others : Fields Json} (h : FieldsFull fields)
    (hothers : FieldsFull others) : FieldsFull (Fields.insertAll fields others) := by
  refine fieldsFull_iff.2 fun field hfield => ?_
  rcases Fields.mem_insertAll hfield with hold | hnew
  · exact fieldsFull_iff.1 h field hold
  · exact fieldsFull_iff.1 hothers field hnew

end Json

/-! ## The references at a list of keys -/

/-- For a group stands the object of its references, when there are any. -/
theorem Node.variableTree?_group (path : String) (g : Group) :
    (Node.group g).variableTree? path =
      if Group.variableTree path g = [] then none else some (.obj (Group.variableTree path g)) := by
  rw [variableTree?]
  cases Group.variableTree path g with
  | nil => rfl
  | cons field fields => rfl

/-- For a token stands the reference to it, for a group with references the object of them, and for
other nodes nothing. -/
theorem Node.variableTree?_eq_some_iff {path : String} {node : Node} {x : Json} :
    node.variableTree? path = some x ↔
      (∃ t, node = .token t ∧ x = .str (variableReference path)) ∨
        ∃ h, node = .group h ∧ Group.variableTree path h ≠ [] ∧
          x = .obj (Group.variableTree path h) := by
  constructor
  · intro hx
    cases node with
    | token t =>
        cases hx
        exact Or.inl ⟨t, rfl, rfl⟩
    | raw y => cases hx
    | group g =>
        rw [variableTree?_group] at hx
        split at hx
        · cases hx
        · rename_i hne
          cases hx
          exact Or.inr ⟨g, rfl, hne, rfl⟩
  · intro hx
    obtain ⟨t, rfl, rfl⟩ | ⟨g, rfl, hne, rfl⟩ := hx
    · rfl
    · rw [variableTree?_group, if_neg hne]

/-- An object that is left out when it is empty has below it what it would have. -/
theorem Node.bind_at?_variableTree?_group (path : String) (g : Group) (key : String)
    (keys : List String) :
    (((Node.group g).variableTree? path).bind fun x => x.at? (key :: keys)) =
      (Fields.get? (Group.variableTree path g) key).bind fun x => x.at? keys := by
  rw [variableTree?_group]
  split
  · rename_i hempty
    rw [hempty]
    rfl
  · rfl

/-- Under a key stands what stands for the child under it, and nothing under the key of theme
wrappers. -/
theorem Group.get?_variableTree {g : Group} (hg : Fields.WellFormed g) (path key : String) :
    Fields.get? (variableTree path g) key =
      if key = themeKey then none
      else (g.child? key).bind (Node.variableTree? (joinPath path key)) := by
  unfold child?
  induction g with
  | nil => simp [variableTree]
  | cons field rest ih =>
      obtain ⟨name, node⟩ := field
      obtain ⟨hname, hrest⟩ := Fields.wellFormed_cons.1 hg
      rw [variableTree]
      by_cases hkey : name = key
      · subst hkey
        -- The references to the other children stand under other keys.
        have hothers : Fields.get? (variableTree path rest) name = none :=
          Fields.get?_eq_none_iff.2 fun hmem =>
            hname ((names_variableTree_sublist path rest).subset hmem)
        rw [Fields.get?_cons_self]
        by_cases htheme : name = themeKey
        · rw [if_pos htheme, if_pos htheme, hothers]
        · rw [if_neg htheme, if_neg htheme, Option.bind_some]
          cases node.variableTree? (joinPath path name) with
          | none => exact hothers
          | some x => exact Fields.get?_cons_self _ _ _
      · rw [Fields.get?_cons_of_ne hkey, ← ih hrest]
        split
        · rfl
        · split
          · exact Fields.get?_cons_of_ne hkey _ _
          · rfl

/-- Below what stands for a node, a list of keys leads to what stands for the node that it leads to.
It leads nowhere when the key of theme wrappers is in it. -/
theorem Node.bind_at?_variableTree? {node : Node} (hnode : node.WellFormed) (path : String)
    (keys : List String) :
    ((node.variableTree? path).bind fun x => x.at? keys) =
      if themeKey ∈ keys then none
      else (node.at? keys).bind (variableTree? (keys.foldl joinPath path)) := by
  induction keys generalizing node path with
  | nil => simp
  | cons key keys ih =>
      cases node with
      | token t => simp [variableTree?, Json.at?_cons, Json.field?, Json.fields?]
      | raw x => simp [variableTree?]
      | group g =>
          rw [bind_at?_variableTree?_group, Group.get?_variableTree hnode.keys, at?_group_cons,
            List.foldl_cons]
          by_cases hkey : key = themeKey
          · rw [if_pos hkey, if_pos (hkey ▸ List.mem_cons_self)]
            rfl
          · rw [if_neg hkey]
            have htheme : themeKey ∈ key :: keys ↔ themeKey ∈ keys := by
              simp [Ne.symm hkey]
            simp only [htheme, Group.child?]
            cases hchild : Fields.get? g key with
            | none => simp
            | some child =>
                exact ih (hnode.child (Fields.mem_of_get? hchild)) (joinPath path key)

namespace Group

/-- The fields mirror a group below a path: they have texts where the group has tokens, except below
the key of theme wrappers, and full objects above these. -/
structure Mirrors (g : Group) (base : String) (fields : Fields Json) : Prop where
  /-- A text is the reference to the token at its keys, by the path that joins these. -/
  texts : ∀ keys text, keys ≠ [] →
    ((Json.obj fields).at? keys = some (.str text) ↔
      (∃ t, g.at? keys = some (.token t)) ∧ themeKey ∉ keys ∧
        text = variableReference (keys.foldl joinPath base))
  /-- Where something else stands, it is an object that is not empty. -/
  others : ∀ keys x, keys ≠ [] → (Json.obj fields).at? keys = some x →
    (∃ text, x = .str text) ∨ ∃ inner, x = .obj inner ∧ inner ≠ []
  /-- The names of an object are keys of the group at its place, in their order. -/
  order : ∀ keys inner, (Json.obj fields).at? keys = some (.obj inner) →
    ∃ h, g.at? keys = some (.group h) ∧ (Fields.names inner).Sublist (Fields.names h)

variable {g : Group} {base : String} {keys : List String} {x : Json}

/-- At a list of keys stands something exactly when it stands for the node that the group has there,
and the key of theme wrappers is not among them. -/
theorem at?_variableTree_eq_some_iff (hg : g.WellFormed) (hkeys : keys ≠ []) :
    (Json.obj (variableTree base g)).at? keys = some x ↔
      themeKey ∉ keys ∧ ∃ node, g.at? keys = some node ∧
        node.variableTree? (keys.foldl joinPath base) = some x := by
  obtain ⟨key, below, rfl⟩ := List.exists_cons_of_ne_nil hkeys
  rw [Json.at?_obj_cons, ← Node.bind_at?_variableTree?_group, Node.bind_at?_variableTree? hg,
    ← at?_eq]
  split
  · rename_i htheme
    exact iff_of_false nofun fun h => h.1 htheme
  · rename_i htheme
    rw [Option.bind_eq_some_iff]
    exact (and_iff_right htheme).symm

/-- The references to the tokens of a group mirror it. -/
theorem mirrors_variableTree (hg : g.WellFormed) (base : String) :
    g.Mirrors base (variableTree base g) where
  texts keys text hkeys := by
    rw [at?_variableTree_eq_some_iff hg hkeys]
    simp only [Node.variableTree?_eq_some_iff]
    constructor
    · intro h
      obtain ⟨htheme, node, hnode, ⟨t, rfl, htext⟩ | ⟨inner, -, -, hobject⟩⟩ := h
      · exact ⟨⟨t, hnode⟩, htheme, Json.str.inj htext⟩
      · cases hobject
    · intro h
      obtain ⟨⟨t, hnode⟩, htheme, rfl⟩ := h
      exact ⟨htheme, _, hnode, Or.inl ⟨t, rfl, rfl⟩⟩
  others keys x hkeys hx := by
    obtain ⟨-, node, -, hnode⟩ := (at?_variableTree_eq_some_iff hg hkeys).1 hx
    rcases Node.variableTree?_eq_some_iff.1 hnode with ⟨t, -, rfl⟩ | ⟨h, -, hne, rfl⟩
    · exact Or.inl ⟨_, rfl⟩
    · exact Or.inr ⟨_, rfl, hne⟩
  order keys inner hinner := by
    by_cases hkeys : keys = []
    · subst hkeys
      cases (Json.at?_nil _).symm.trans hinner
      exact ⟨g, Node.at?_nil _, names_variableTree_sublist base g⟩
    · obtain ⟨-, node, hat, hnode⟩ := (at?_variableTree_eq_some_iff hg hkeys).1 hinner
      rcases Node.variableTree?_eq_some_iff.1 hnode with ⟨t, -, htext⟩ | ⟨h, rfl, -, hobject⟩
      · cases htext
      · cases hobject
        exact ⟨h, hat, names_variableTree_sublist _ h⟩

end Group

/-! ## Themes without empty objects -/

mutual

/-- What stands for a node has no empty objects. -/
theorem Node.full_of_variableTree? (path : String) : (node : Node) → {x : Json} →
    node.variableTree? path = some x → x.Full
  | .token t, x, hx => by
      cases hx
      trivial
  | .raw y, x, hx => nomatch hx
  | .group children, x, hx => by
      obtain ⟨t, hnode, -⟩ | ⟨h, hnode, hne, rfl⟩ := Node.variableTree?_eq_some_iff.1 hx
      · cases hnode
      · cases hnode
        exact ⟨hne, Group.fieldsFull_variableTree path children⟩

/-- The references to the tokens of a group are without empty objects. -/
theorem Group.fieldsFull_variableTree (path : String) : (g : List (String × Node)) →
    Json.FieldsFull (Group.variableTree path g)
  | [] => trivial
  | (key, node) :: rest => by
      have hrest := Group.fieldsFull_variableTree path rest
      rw [Group.variableTree]
      split
      · exact hrest
      · split
        · rename_i x hx
          exact ⟨Node.full_of_variableTree? _ node hx, hrest⟩
        · exact hrest

end

namespace UtilityTheme

/-- The references of a category are without empty objects. -/
theorem fieldsFull_categoryVariables (root : Group) (keys : List String) :
    Json.FieldsFull (categoryVariables root keys) := by
  rcases categoryVariables_cases root keys with ⟨-, hnone⟩ | ⟨h, -, hsome⟩
  · rw [hnone]
    trivial
  · rw [hsome]
    exact Group.fieldsFull_variableTree _ h

/-- Putting one more category into a theme makes no empty object: a category without references is
left out, and one with references is merged with what is there. -/
theorem fieldsFull_addCategory {theme : Fields Json} (root : Group)
    (category : List String × String) (htheme : Json.FieldsFull theme) :
    Json.FieldsFull (addCategory root theme category) := by
  unfold addCategory
  dsimp only
  split
  · exact htheme
  · rename_i hreferences
    have hpresent : Json.FieldsFull (((theme.get? category.2).bind Json.fields?).getD []) := by
      cases hget : (theme.get? category.2).bind Json.fields? with
      | none => trivial
      | some present =>
          have hobject := Fields.mem_of_get? (Json.bind_fields?_eq_some_iff.1 hget)
          exact (Json.fieldsFull_iff.1 htheme _ hobject).2
    have hne : categoryVariables root category.1 ≠ [] := mt List.isEmpty_iff.2 hreferences
    exact htheme.insert category.2 ⟨Fields.insertAll_ne_nil (Or.inr hne),
      hpresent.insertAll (fieldsFull_categoryVariables root category.1)⟩

/-- A theme is without empty objects. -/
theorem fieldsFull_ofRoot (root : Group) : Json.FieldsFull (ofRoot root) := by
  have hrun (cs : List (List String × String)) (theme : Fields Json)
      (htheme : Json.FieldsFull theme) : Json.FieldsFull (cs.foldl (addCategory root) theme) := by
    induction cs generalizing theme with
    | nil => exact htheme
    | cons category cs ih => exact ih _ (fieldsFull_addCategory root category htheme)
  exact hrun categories [] trivial

end UtilityTheme

/-- The references to the tokens of a group mirror it below every path. The utility theme of the
group can be made, no object in it is empty at any depth, and it is empty itself only when it has no
leaf. -/
theorem variableTree_mirrors {g : Group} (hg : g.WellFormed) (base : String) :
    g.Mirrors base (Group.variableTree base g) ∧
      ∃ theme, g.utilityTheme.result = .ok theme ∧ Json.FieldsFull theme ∧
        (theme = [] ↔ (Json.obj theme).leaves = []) := by
  obtain ⟨root, hroot, -⟩ := UtilityTheme.exists_categoryRoot g
  have hfull := UtilityTheme.fieldsFull_ofRoot root
  exact ⟨Group.mirrors_variableTree hg base, _,
    Outcome.andThen_done_eq_ok_iff.2 ⟨root, hroot, rfl⟩, hfull, hfull.eq_nil_iff⟩

namespace HollowScale

/-- A document with a length two groups deep, and beside it a note, a theme wrapper, and groups in
which there is no token at any depth. -/
def document : Fields Json :=
  [("spacing", .obj
      [("hollow", .obj [("deep", .obj []), ("note", .str "in pixels")]),
       ("theme", .obj [("dark", .obj [("color", .obj
          [("ink", .obj [("value", .str "#111111"), ("type", .str "color")])])])]),
       ("scale", .obj [("small", .obj [("value", .str "4px"), ("type", .str "dimension")])])]),
   ("gap", .obj [("value", .str "8px"), ("type", .str "dimension")]),
   ("shadow", .obj [("none", .obj [])])]

/-- The tree of the document. -/
def tree : Group :=
  Group.ofFields document

theorem wellFormed : tree.WellFormed := by
  refine Group.wellFormed_ofFields ?_
  simp [document, Json.WellFormed, Json.FieldsWellFormed, Fields.WellFormed]

/-- The references to its tokens below a path. -/
def references : Fields Json :=
  [("spacing", .obj [("scale", .obj [("small", .str "var(--app-spacing-scale-small)")])]),
   ("gap", .str "var(--app-gap)")]

theorem references_eq : Group.variableTree "app" tree = references := rfl

/-- Its utility theme. -/
def theme : Fields Json :=
  [("spacing", .obj [("scale", .obj [("small", .str "var(--spacing-scale-small)")])])]

theorem theme_eq : tree.utilityTheme.result = .ok theme := rfl

end HollowScale

open HollowScale in
/-- The references and the utility theme of that tree have nothing where it has no tokens. -/
theorem hollow_scale_mirrored :
    tree.WellFormed ∧ tree.Mirrors "app" references ∧ tree.utilityTheme.result = .ok theme ∧
      Json.FieldsFull theme ∧ (theme = [] ↔ (Json.obj theme).leaves = []) := by
  obtain ⟨hmirrors, made, hmade, hfull, hleaves⟩ := variableTree_mirrors wellFormed "app"
  rw [references_eq] at hmirrors
  cases theme_eq.symm.trans hmade
  exact ⟨wellFormed, hmirrors, theme_eq, hfull, hleaves⟩

end DesignTokens
