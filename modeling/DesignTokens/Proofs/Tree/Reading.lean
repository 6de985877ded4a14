import DesignTokens.Proofs.Json.Structure
import DesignTokens.Proofs.Tree.Structure
import DesignTokens.Tree.Document

/-!
# Reading trees from documents

Which node a value is read as, and where the nodes of a tree come from. `at?_ofJson_eq_some_iff`
says that a node stands at a list of keys exactly when it is read from the value there and no value
on the way is read as a token.
-/

namespace DesignTokens

namespace Token

theorem ofJson?_obj (fields : Fields Json) : ofJson? (.obj fields) = ofFields? fields := rfl

/-- Only objects are tokens. -/
theorem ofJson?_eq_none_of_fields? {x : Json} (h : x.fields? = none) : ofJson? x = none := by
  simp [ofJson?, h]

/-- An object is a token exactly when it has a value that is a text or a number and a type that is
a text. -/
theorem ofFields?_eq_some_iff {fields : Fields Json} {t : Token} :
    ofFields? fields = some t ↔
      ∃ value type, (fields.get? "value").bind valueText? = some value ∧
        (fields.get? "type").bind Json.str? = some type ∧
        t = ⟨.str value, .str type, descriptionIn fields, fields.without ownFields⟩ := by
  simp only [ofFields?, Option.bind_eq_bind, Option.bind_eq_some_iff, Option.some.injEq]
  constructor
  · intro hread
    obtain ⟨value, hvalue, type, htype, rfl⟩ := hread
    exact ⟨value, type, hvalue, htype, rfl⟩
  · intro hread
    obtain ⟨value, type, hvalue, htype, rfl⟩ := hread
    exact ⟨value, hvalue, type, htype, rfl⟩

/-- An object is a token exactly when its value and its type can be read. -/
theorem isSome_ofFields?_iff {fields : Fields Json} :
    (ofFields? fields).isSome ↔
      ((fields.get? "value").bind valueText?).isSome ∧
        ((fields.get? "type").bind Json.str?).isSome := by
  rw [Option.isSome_iff_exists, Option.isSome_iff_exists, Option.isSome_iff_exists]
  constructor
  · intro htoken
    obtain ⟨t, ht⟩ := htoken
    obtain ⟨value, type, hvalue, htype, -⟩ := ofFields?_eq_some_iff.1 ht
    exact ⟨⟨value, hvalue⟩, ⟨type, htype⟩⟩
  · intro hboth
    obtain ⟨⟨value, hvalue⟩, ⟨type, htype⟩⟩ := hboth
    exact ⟨_, ofFields?_eq_some_iff.2 ⟨value, type, hvalue, htype, rfl⟩⟩

/-- An object whose fields are all objects describes no token. -/
theorem ofFields?_eq_none_of_objects {fields : Fields Json}
    (hobjects : ∀ field ∈ fields, ∃ inner, field.2 = .obj inner) : ofFields? fields = none := by
  refine Option.eq_none_iff_forall_ne_some.2 fun t ht => ?_
  obtain ⟨value, type, hvalue, -⟩ := ofFields?_eq_some_iff.1 ht
  obtain ⟨x, hx, htext⟩ := Option.bind_eq_some_iff.1 hvalue
  obtain ⟨inner, hinner⟩ := hobjects _ (Fields.mem_of_get? hx)
  obtain rfl : x = .obj inner := hinner
  cases htext

end Token

namespace Node

/-- A value that is no object is kept as it is. -/
theorem ofJson_of_fields?_eq_none {x : Json} (h : x.fields? = none) : ofJson x = .raw x := by
  cases x <;> first | rfl | cases h

/-- An object that is a token is read as this token. -/
theorem ofJson_obj_of_token {fields : Fields Json} {t : Token}
    (h : Token.ofFields? fields = some t) : ofJson (.obj fields) = .token t := by
  rw [ofJson, h]

/-- Any other object is read as a group. -/
theorem ofJson_obj_of_none {fields : Fields Json} (h : Token.ofFields? fields = none) :
    ofJson (.obj fields) = .group (Group.ofFields fields) := by
  rw [ofJson, h]

/-- A value is read as a token exactly when it describes it. -/
theorem ofJson_eq_token_iff {x : Json} {t : Token} :
    ofJson x = .token t ↔ Token.ofJson? x = some t := by
  cases x using Json.objectCases with
  | leaf x hx => simp [ofJson_of_fields?_eq_none hx, Token.ofJson?_eq_none_of_fields? hx]
  | object fields =>
      rw [Token.ofJson?_obj]
      cases hfields : Token.ofFields? fields with
      | none => simp [ofJson_obj_of_none hfields]
      | some u => simp [ofJson_obj_of_token hfields]

/-- A value is read as a group exactly when it is an object that is no token. -/
theorem ofJson_eq_group_iff {x : Json} {g : Group} :
    ofJson x = .group g ↔
      ∃ fields, x = .obj fields ∧ Token.ofFields? fields = none ∧ g = Group.ofFields fields := by
  constructor
  · intro h
    cases x using Json.objectCases with
    | leaf x hx => simp [ofJson_of_fields?_eq_none hx] at h
    | object fields =>
        cases hfields : Token.ofFields? fields with
        | none =>
            rw [ofJson_obj_of_none hfields, Node.group.injEq] at h
            exact ⟨fields, rfl, hfields, h.symm⟩
        | some u => simp [ofJson_obj_of_token hfields] at h
  · intro hobject
    obtain ⟨fields, rfl, hfields, rfl⟩ := hobject
    exact ofJson_obj_of_none hfields

/-- What is read as a raw value is no object. -/
theorem fields?_of_ofJson_eq_raw {x y : Json} (h : ofJson x = .raw y) :
    x.fields? = none ∧ x = y := by
  cases x using Json.objectCases with
  | leaf x hx => exact ⟨hx, by simpa [ofJson_of_fields?_eq_none hx] using h⟩
  | object fields =>
      cases hfields : Token.ofFields? fields with
      | none => simp [ofJson_obj_of_none hfields] at h
      | some u => simp [ofJson_obj_of_token hfields] at h

end Node

namespace Group

/-- The children of a tree are read one by one. -/
theorem ofFields_eq_map (fields : Fields Json) :
    ofFields fields = fields.map fun field => (field.1, Node.ofJson field.2) := by
  induction fields with
  | nil => rfl
  | cons field rest ih => rw [ofFields, ih, List.map_cons]

/-- The child under a key is read from the value there. -/
theorem get?_ofFields (fields : Fields Json) (key : String) :
    Fields.get? (ofFields fields) key = (fields.get? key).map Node.ofJson := by
  rw [ofFields_eq_map]
  exact Fields.get?_map Node.ofJson fields key

/-- The keys of a tree are the names of its document. -/
theorem names_ofFields (fields : Fields Json) :
    Fields.names (ofFields fields) = fields.names := by
  simp [ofFields_eq_map, Fields.names]

end Group

/-- Children that are read as well-formed nodes under distinct names make a well-formed tree. -/
theorem Group.wellFormed_of_children {fields : Fields Json} (h : fields.WellFormed)
    (hchildren : ∀ key x, (key, x) ∈ fields → (Node.ofJson x).WellFormed) :
    Group.WellFormed (Group.ofFields fields) := by
  refine .group ?_ fun key node hmem => ?_
  · rw [Fields.wellFormed_iff, Group.names_ofFields]
    exact h
  · rw [Group.ofFields_eq_map, List.mem_map] at hmem
    obtain ⟨⟨name, x⟩, hx, heq⟩ := hmem
    cases heq
    exact hchildren name x hx

/-- A well-formed value is read as a well-formed node. -/
theorem Node.wellFormed_ofJson {x : Json} (h : x.WellFormed) : (Node.ofJson x).WellFormed := by
  induction x using Json.objectInduction with
  | leaf x hx =>
      rw [Node.ofJson_of_fields?_eq_none hx]
      exact .raw x
  | object fields ih =>
      cases hfields : Token.ofFields? fields with
      | some t =>
          rw [Node.ofJson_obj_of_token hfields]
          exact .token t
      | none =>
          rw [Node.ofJson_obj_of_none hfields]
          exact Group.wellFormed_of_children h.fields fun key y hy =>
            ih key y hy ((Json.wellFormed_obj_iff.1 h).2 key y hy)

/-- The tree of a well-formed document is well formed. -/
theorem Group.wellFormed_ofFields {fields : Fields Json} (h : (Json.obj fields).WellFormed) :
    Group.WellFormed (Group.ofFields fields) :=
  Group.wellFormed_of_children h.fields fun key x hx =>
    Node.wellFormed_ofJson ((Json.wellFormed_obj_iff.1 h).2 key x hx)

/-- The value of a token that is read from a document is a text. -/
theorem Node.exists_text_of_ofJson {x : Json} {t : Token} (h : Node.ofJson x = .token t) :
    ∃ text, t.value = .str text := by
  obtain ⟨fields, -, htoken⟩ := Option.bind_eq_some_iff.1 (Node.ofJson_eq_token_iff.1 h)
  obtain ⟨value, -, -, -, rfl⟩ := Token.ofFields?_eq_some_iff.1 htoken
  exact ⟨value, rfl⟩

/-- All children of the tree of a document are read from its values and from what is below these. -/
theorem Group.everyChild_ofFields_iff {p : String → Node → Prop} {fields : Fields Json} :
    Group.EveryChild p (Group.ofFields fields) ↔
      ∀ key x, (key, x) ∈ fields → p key (Node.ofJson x) ∧ (Node.ofJson x).EveryChild p := by
  rw [Group.everyChild_iff, Group.ofFields_eq_map]
  constructor
  · exact fun h key x hx => h key (Node.ofJson x) (List.mem_map_of_mem hx)
  · intro h key node hmem
    obtain ⟨⟨name, x⟩, hx, heq⟩ := List.mem_map.1 hmem
    cases heq
    exact h name x hx

/-- What holds of all nodes that are read from values holds of all children of such a node. -/
theorem Node.everyChild_ofJson {p : String → Node → Prop} (h : ∀ key x, p key (Node.ofJson x))
    (x : Json) : (Node.ofJson x).EveryChild p := by
  induction x using Json.objectInduction with
  | leaf x hx =>
      rw [ofJson_of_fields?_eq_none hx]
      trivial
  | object fields ih =>
      cases hfields : Token.ofFields? fields with
      | some t =>
          rw [ofJson_obj_of_token hfields]
          trivial
      | none =>
          rw [ofJson_obj_of_none hfields]
          exact Group.everyChild_ofFields_iff.2 fun name y hy => ⟨h name y, ih name y hy⟩

/-- What holds of all nodes that are read from values holds of all children in the tree of a
document. -/
theorem Group.everyChild_ofFields {p : String → Node → Prop} (h : ∀ key x, p key (Node.ofJson x))
    (fields : Fields Json) : Group.EveryChild p (Group.ofFields fields) :=
  Group.everyChild_ofFields_iff.2 fun key x _ => ⟨h key x, Node.everyChild_ofJson h x⟩

/-- The values of all tokens in the tree of a document are texts. -/
theorem Group.everyChild_text_ofFields (fields : Fields Json) :
    Group.EveryChild (fun _ node => ∀ t, node = .token t → ∃ text, t.value = .str text)
      (Group.ofFields fields) :=
  Group.everyChild_ofFields (fun _ _ _ => Node.exists_text_of_ofJson) fields

/-- The value of a token that stands in a group read from a document is a text. -/
theorem Group.exists_text_of_child? {x : Json} {g : Group} (h : Node.ofJson x = .group g)
    (key : String) (t : Token) (hchild : g.child? key = some (.token t)) :
    ∃ text, t.value = .str text := by
  obtain ⟨fields, -, -, rfl⟩ := Node.ofJson_eq_group_iff.1 h
  exact (Group.everyChild_iff.1 (Group.everyChild_text_ofFields fields) key _
    (Fields.mem_of_get? hchild)).1 t rfl

/-! ## Where nodes come from -/

/-- What holds of every list that leads strictly above a list with a first key, but not to the
root, holds of what leads strictly above the rest below that key. -/
theorem forall_above_cons_iff {Q : List String → Prop} {key : String} {keys : List String} :
    (∀ above, above ≠ [] → above <+: key :: keys → above ≠ key :: keys → Q above) ↔
      ∀ above, above <+: keys → above ≠ keys → Q (key :: above) := by
  constructor
  · intro h above habove hne
    exact h (key :: above) (by simp) (List.cons_prefix_cons.2 ⟨rfl, habove⟩)
      (fun heq => hne (List.cons.inj heq).2)
  · intro h above hnil habove hne
    obtain ⟨first, rest, rfl⟩ := List.exists_cons_of_ne_nil hnil
    obtain ⟨rfl, hrest⟩ := List.cons_prefix_cons.1 habove
    exact h rest hrest (fun heq => hne (heq ▸ rfl))

/-- A node stands at a list of keys exactly when it is read from the value there and no value on the
way is a token. -/
theorem Node.at?_ofJson_eq_some_iff {x : Json} {keys : List String} {node : Node} :
    (Node.ofJson x).at? keys = some node ↔
      ∃ y, x.at? keys = some y ∧ Node.ofJson y = node ∧
        ∀ above, above <+: keys → above ≠ keys →
          ∀ z, x.at? above = some z → Token.ofJson? z = none := by
  induction keys generalizing x with
  | nil => simp
  | cons key keys ih =>
      cases x using Json.objectCases with
      | leaf x hx => simp [Node.ofJson_of_fields?_eq_none hx, Json.at?_cons_of_fields?_eq_none hx]
      | object fields =>
          cases hfields : Token.ofFields? fields with
          | some t =>
              -- A token hides what is below it, and stands on the way itself.
              rw [Node.ofJson_obj_of_token hfields, Node.at?_token_cons]
              refine iff_of_false (by simp) ?_
              intro hnode
              obtain ⟨y, -, -, habove⟩ := hnode
              have hroot := habove [] List.nil_prefix (by simp) _ (Json.at?_nil _)
              rw [Token.ofJson?_obj, hfields] at hroot
              cases hroot
          | none =>
              rw [Node.ofJson_obj_of_none hfields, Node.at?_group_cons, Group.get?_ofFields,
                Json.at?_obj_cons]
              cases hchild : fields.get? key with
              | none => simp
              | some child =>
                  -- What is strictly above the node is the object, which is no token here, and
                  -- what is strictly above it in the child.
                  simp only [Option.map_some, Option.bind_some, ih]
                  refine exists_congr fun y => and_congr_right fun _ => and_congr_right fun _ => ?_
                  have hbelow (above : List String) (z : Json) :
                      (Json.obj fields).at? (key :: above) = some z ↔ child.at? above = some z := by
                    rw [Json.at?_obj_cons, hchild, Option.bind_some]
                  simp only [← hbelow]
                  rw [← forall_above_cons_iff (Q := fun above =>
                    ∀ z, (Json.obj fields).at? above = some z → Token.ofJson? z = none)]
                  refine forall_congr' fun above => ⟨fun h habove hne => ?_, fun h _ => h⟩
                  by_cases hnil : above = []
                  · rintro z hz
                    cases (Json.at?_nil _).symm.trans (hnil ▸ hz)
                    exact hfields
                  · exact h hnil habove hne

/-- The same for the tree of a document, whose root is no token. -/
theorem Group.at?_ofFields_eq_some_iff {fields : Fields Json} {keys : List String} {node : Node}
    (hkeys : keys ≠ []) :
    Group.at? (Group.ofFields fields) keys = some node ↔
      ∃ y, (Json.obj fields).at? keys = some y ∧ Node.ofJson y = node ∧
        ∀ above, above ≠ [] → above <+: keys → above ≠ keys →
          ∀ z, (Json.obj fields).at? above = some z → Token.ofJson? z = none := by
  obtain ⟨key, keys, rfl⟩ := List.exists_cons_of_ne_nil hkeys
  rw [Group.at?_eq, Node.at?_group_cons, Group.get?_ofFields,
    forall_above_cons_iff (Q := fun above =>
      ∀ z, (Json.obj fields).at? above = some z → Token.ofJson? z = none)]
  cases hchild : fields.get? key with
  | none => simp [hchild]
  | some child => simp [hchild, Node.at?_ofJson_eq_some_iff]

end DesignTokens
