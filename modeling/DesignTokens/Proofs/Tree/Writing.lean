import DesignTokens.Proofs.Tree.Reading

/-!
# Writing trees as documents

A tree that was read from a document is written as a document that is read as the same tree, since
a written token describes the token and a written group describes none. What is written differs from
the document that was read at most in the order of fields (`Json.Rearranged`) exactly when all
tokens have texts where texts are written: `toJson_roundTrip`.
-/

namespace DesignTokens

/-! ## Rearranged documents -/

namespace Json

/-- The documents differ at most in the order of fields. -/
inductive Rearranged : Json → Json → Prop where
  | refl (x : Json) : Rearranged x x
  /-- Objects with the same names in any order, and under each name values that differ at most in the
  order of fields. -/
  | obj {fields others : Fields Json} (names : fields.names.Perm others.names)
      (values : ∀ name x y, fields.get? name = some x → others.get? name = some y →
        Rearranged x y) : Rearranged (.obj fields) (.obj others)

/-- A value that is no object is a rearrangement of itself only. -/
theorem Rearranged.eq_of_fields? {x y : Json} (h : x.Rearranged y) (hx : x.fields? = none) :
    x = y := by
  cases h with
  | refl => rfl
  | obj => cases hx

/-- A rearrangement of an object is an object. -/
theorem Rearranged.exists_fields {fields : Fields Json} {y : Json}
    (h : (Json.obj fields).Rearranged y) : ∃ others, y = .obj others := by
  cases h with
  | refl => exact ⟨fields, rfl⟩
  | obj => exact ⟨_, rfl⟩

theorem rearranged_obj_iff {fields others : Fields Json} :
    (Json.obj fields).Rearranged (.obj others) ↔
      fields.names.Perm others.names ∧
        ∀ name x y, fields.get? name = some x → others.get? name = some y → x.Rearranged y := by
  constructor
  · intro h
    cases h with
    | refl =>
        refine ⟨List.Perm.refl _, fun name x y hx hy => ?_⟩
        cases hx.symm.trans hy
        exact .refl x
    | obj names values => exact ⟨names, values⟩
  · exact fun h => .obj h.1 h.2

end Json

/-! ## Tokens -/

namespace Token

variable {fields : Fields Json} {t : Token}

/-- A token as it is read from an object: its value and type are texts, it has no description or a
text, and its other fields repeat no name and are none of its own. -/
structure WellFormed (t : Token) : Prop where
  value : ∃ text, t.value = .str text
  type : ∃ text, t.type = .str text
  description : t.description = .null ∨ ∃ text, t.description = .str text
  extra : t.extra.WellFormed
  others : ∀ name ∈ t.extra.names, name ∉ ownFields

/-- The description of an object is nothing or a text. -/
theorem descriptionIn_cases (fields : Fields Json) :
    descriptionIn fields = .null ∨ ∃ text, descriptionIn fields = .str text := by
  unfold descriptionIn
  split
  · exact Or.inr ⟨_, rfl⟩
  · exact Or.inl rfl

/-- A token that is read from an object without repeated names is well formed. -/
theorem wellFormed_of_ofFields? (hfields : fields.WellFormed) (h : ofFields? fields = some t) :
    t.WellFormed := by
  obtain ⟨value, type, -, -, rfl⟩ := ofFields?_eq_some_iff.1 h
  exact ⟨⟨value, rfl⟩, ⟨type, rfl⟩, descriptionIn_cases fields, hfields.without ownFields,
    fun name hname => Fields.not_mem_names_without hname⟩

/-- The fields in which a token states its value, its type, and a description when it has one. -/
def ownPart (t : Token) : Fields Json :=
  match t.description with
  | .null => [("value", t.value), ("type", t.type)]
  | description => [("value", t.value), ("type", t.type), ("description", description)]

/-- A well-formed token states its own fields once. -/
theorem WellFormed.ownPart (h : t.WellFormed) :
    t.ownPart.WellFormed ∧ ∀ name ∈ t.ownPart.names, name ∈ ownFields := by
  obtain ⟨value, type, description, extra⟩ := t
  rcases h.description with rfl | ⟨text, rfl⟩
  · exact ⟨by simp [Token.ownPart, Fields.WellFormed], by simp [Token.ownPart, ownFields]⟩
  · exact ⟨by simp [Token.ownPart, Fields.WellFormed], by simp [Token.ownPart, ownFields]⟩

/-- The fields of a well-formed token are its own, then the others. -/
theorem WellFormed.toFields_eq (h : t.WellFormed) :
    t.toFields = t.ownPart ++ t.extra ∧ t.toFields.WellFormed := by
  obtain ⟨hown, hnames⟩ := h.ownPart
  have hall : (t.ownPart ++ t.extra).WellFormed := by
    rw [Fields.wellFormed_iff, Fields.names_append]
    refine List.Nodup.append hown h.extra fun name hname hextra => ?_
    exact h.others name hextra (hnames name hname)
  have heq : t.toFields = Fields.insertAll t.ownPart t.extra := by
    unfold toFields Token.ownPart
    cases t.description <;> rfl
  rw [heq, Fields.insertAll_eq_append hall]
  exact ⟨rfl, hall⟩

/-- What is found under the names of a token's own fields. -/
theorem WellFormed.get?_own (h : t.WellFormed) :
    t.toFields.get? "value" = some t.value ∧ t.toFields.get? "type" = some t.type ∧
      t.toFields.get? "description" =
        if t.description = .null then none else some t.description := by
  have hnone : t.extra.get? "description" = none :=
    Fields.get?_eq_none_iff.2 fun hname => h.others _ hname (by decide)
  obtain ⟨hfields, -⟩ := h.toFields_eq
  rw [hfields, Fields.get?_append, Fields.get?_append, Fields.get?_append, hnone]
  obtain ⟨value, type, description, extra⟩ := t
  rcases h.description with rfl | ⟨text, rfl⟩
  · exact ⟨rfl, rfl, rfl⟩
  · exact ⟨rfl, rfl, rfl⟩

/-- Under any other name a token has what its other fields have. -/
theorem WellFormed.get?_other (h : t.WellFormed) {name : String} (hname : name ∉ ownFields) :
    t.toFields.get? name = t.extra.get? name := by
  have hnone : t.ownPart.get? name = none :=
    Fields.get?_eq_none_iff.2 fun hown => hname (h.ownPart.2 name hown)
  rw [h.toFields_eq.1, Fields.get?_append, hnone, Option.none_or]

/-- What a well-formed token is written as describes this token. -/
theorem WellFormed.ofFields?_toFields (h : t.WellFormed) : ofFields? t.toFields = some t := by
  obtain ⟨hvalue, htype, hdescription⟩ := h.get?_own
  obtain ⟨value, hvalueText⟩ := h.value
  obtain ⟨type, htypeText⟩ := h.type
  have hextra : t.toFields.without ownFields = t.extra := by
    have hown : t.ownPart.without ownFields = [] := by
      refine List.filter_eq_nil_iff.2 fun field hfield => ?_
      simpa using h.ownPart.2 field.1 (List.mem_map_of_mem hfield)
    have hothers : t.extra.without ownFields = t.extra := by
      refine List.filter_eq_self.2 fun field hfield => ?_
      simpa using h.others field.1 (List.mem_map_of_mem hfield)
    rw [h.toFields_eq.1, Fields.without, List.filter_append, ← Fields.without, ← Fields.without,
      hown, hothers, List.nil_append]
  have hread : descriptionIn t.toFields = t.description := by
    rw [descriptionIn, hdescription]
    rcases h.description with hnull | ⟨text, htext⟩
    · rw [hnull]
      rfl
    · rw [htext]
      rfl
  refine ofFields?_eq_some_iff.2 ⟨value, type, ?_, ?_, ?_⟩
  · rw [hvalue, hvalueText]
    rfl
  · rw [htype, htypeText]
    rfl
  · rw [hread, hextra, ← hvalueText, ← htypeText]

/-! ## Tokens that are read from texts -/

/-- The value among these fields is a text, and so is the description when there is one. -/
def Textual (fields : Fields Json) : Prop :=
  (∃ value, fields.get? "value" = some (.str value)) ∧
    ∀ x, fields.get? "description" = some x → ∃ text, x = .str text

/-- A token that is read from texts keeps the value of every field. -/
theorem get?_toFields_of_textual (hfields : fields.WellFormed) (h : ofFields? fields = some t)
    (htexts : Textual fields) (name : String) : t.toFields.get? name = fields.get? name := by
  have ht := wellFormed_of_ofFields? hfields h
  obtain ⟨hvalue, htype, hdescription⟩ := ht.get?_own
  obtain ⟨value, type, hreadValue, hreadType, rfl⟩ := ofFields?_eq_some_iff.1 h
  by_cases hown : name ∈ ownFields
  · have hcases : name = "value" ∨ name = "type" ∨ name = "description" := by
      simpa [ownFields] using hown
    rcases hcases with rfl | rfl | rfl
    · obtain ⟨text, htext⟩ := htexts.1
      rw [hvalue, htext]
      rw [htext] at hreadValue
      cases hreadValue
      rfl
    · obtain ⟨x, hx, hread⟩ := Option.bind_eq_some_iff.1 hreadType
      rw [htype, hx, Json.str?_eq_some_iff.1 hread]
    · rw [hdescription, descriptionIn]
      cases hget : fields.get? "description" with
      | none => rfl
      | some x =>
          obtain ⟨text, rfl⟩ := htexts.2 x hget
          rfl
  · rw [ht.get?_other hown, Fields.get?_without, if_neg hown]

/-- What a token is written as differs from the object that it is read from at most in the order of
fields exactly when that has texts where a token has them. -/
theorem rearranged_toJson_iff (hfields : fields.WellFormed) (h : ofFields? fields = some t) :
    t.toJson.Rearranged (.obj fields) ↔ Textual fields := by
  have ht := wellFormed_of_ofFields? hfields h
  rw [toJson, Json.rearranged_obj_iff]
  constructor
  · rintro ⟨hnames, hvalues⟩
    obtain ⟨hvalue, -, hdescription⟩ := ht.get?_own
    obtain ⟨value, type, hread, -, rfl⟩ := ofFields?_eq_some_iff.1 h
    obtain ⟨x, hx, -⟩ := Option.bind_eq_some_iff.1 hread
    refine ⟨⟨value, ?_⟩, fun y hy => ?_⟩
    · rw [hx, ← (hvalues _ _ _ hvalue hx).eq_of_fields? rfl]
    · -- The description is written, so it was read as a text.
      obtain ⟨z, hz⟩ := Fields.exists_get?_of_mem_names
        (hnames.mem_iff.2 (Fields.mem_names_of_get? hy))
      rcases descriptionIn_cases fields with hnull | ⟨text, htext⟩
      · rw [hdescription, if_pos hnull] at hz
        cases hz
      · rw [if_neg (by rw [htext]; nofun)] at hdescription
        have hsame := (hvalues _ _ _ hdescription hy).eq_of_fields? (by rw [htext]; rfl)
        exact ⟨text, hsame.symm.trans htext⟩
  · intro htexts
    have hget := get?_toFields_of_textual hfields h htexts
    refine ⟨Fields.names_perm_of_get?_eq ht.toFields_eq.2 hfields hget, fun name x y hx hy => ?_⟩
    cases hx.symm.trans ((hget name).trans hy)
    exact .refl x

end Token

/-! ## Trees -/

namespace Group

/-- The fields of a written group are written one by one. -/
theorem toFields_eq_map (g : Group) :
    toFields g = g.map fun child => (child.1, child.2.toJson) := by
  induction g with
  | nil => rfl
  | cons child rest ih => rw [toFields, ih, List.map_cons]

/-- What is written for the tree of a document is written field by field. -/
theorem toFields_ofFields (fields : Fields Json) :
    toFields (ofFields fields) =
      fields.map fun field => (field.1, (Node.ofJson field.2).toJson) := by
  rw [toFields_eq_map, ofFields_eq_map, List.map_map]
  rfl

/-- Under every name stands what is written for the node there. -/
theorem get?_toFields_ofFields (fields : Fields Json) (name : String) :
    Fields.get? (toFields (ofFields fields)) name =
      (fields.get? name).map fun x => (Node.ofJson x).toJson := by
  rw [toFields_ofFields]
  exact Fields.get?_map (fun x => (Node.ofJson x).toJson) fields name

end Group

namespace Node

/-- What is no object is written as it was read. -/
theorem toJson_ofJson_of_fields? {x : Json} (h : x.fields? = none) : (ofJson x).toJson = x := by
  rw [ofJson_of_fields?_eq_none h, toJson]

/-- What is an object is written as an object. -/
theorem exists_fields_of_toJson_ofJson (fields : Fields Json) :
    ∃ written, (ofJson (.obj fields)).toJson = .obj written := by
  cases h : Token.ofFields? fields with
  | some t => exact ⟨t.toFields, by rw [ofJson_obj_of_token h, toJson, Token.toJson]⟩
  | none => exact ⟨Group.toFields (Group.ofFields fields), by rw [ofJson_obj_of_none h, toJson]⟩

/-- A reading that objects do not pass reads a value and what is written for it in the same way. -/
theorem read_toJson_ofJson {α : Type} {read : Json → Option α}
    (hobject : ∀ fields, read (.obj fields) = none) (x : Json) :
    read (ofJson x).toJson = read x := by
  cases x using Json.objectCases with
  | leaf x hx => rw [toJson_ofJson_of_fields? hx]
  | object fields =>
      obtain ⟨written, hwritten⟩ := exists_fields_of_toJson_ofJson fields
      rw [hwritten, hobject, hobject]

end Node

/-- A group is written as an object that describes no token. -/
theorem Group.ofFields?_toFields_of_none {fields : Fields Json}
    (h : Token.ofFields? fields = none) :
    Token.ofFields? (Group.toFields (Group.ofFields fields)) = none := by
  have hread {α : Type} {read : Json → Option α} (hobject : ∀ fields, read (.obj fields) = none)
      (name : String) :
      (Fields.get? (Group.toFields (Group.ofFields fields)) name).bind read =
        (fields.get? name).bind read := by
    rw [Group.get?_toFields_ofFields, Option.bind_map]
    congr 1
    funext x
    exact Node.read_toJson_ofJson hobject x
  rw [← Option.not_isSome_iff_eq_none, Token.isSome_ofFields?_iff] at h ⊢
  rwa [hread (fun _ => rfl), hread (fun _ => rfl)]

/-- A written group is read as the same group when its children are. -/
theorem Group.ofFields_toFields_of_children {fields : Fields Json}
    (h : ∀ key x, (key, x) ∈ fields → Node.ofJson (Node.ofJson x).toJson = Node.ofJson x) :
    ofFields (toFields (ofFields fields)) = ofFields fields := by
  rw [toFields_ofFields, ofFields_eq_map, ofFields_eq_map, List.map_map]
  refine List.map_congr_left fun field hfield => ?_
  exact congrArg (Prod.mk field.1) (h field.1 field.2 hfield)

/-- A written node is read as the same node. -/
theorem Node.ofJson_toJson_ofJson {x : Json} (h : x.WellFormed) :
    ofJson (ofJson x).toJson = ofJson x := by
  induction x using Json.objectInduction with
  | leaf x hx => rw [toJson_ofJson_of_fields? hx]
  | object fields ih =>
      cases hfields : Token.ofFields? fields with
      | some t =>
          have ht := Token.wellFormed_of_ofFields? h.fields hfields
          rw [ofJson_obj_of_token hfields, toJson, Token.toJson,
            ofJson_obj_of_token ht.ofFields?_toFields]
      | none =>
          rw [ofJson_obj_of_none hfields, toJson,
            ofJson_obj_of_none (Group.ofFields?_toFields_of_none hfields)]
          refine congrArg Node.group (Group.ofFields_toFields_of_children fun key x hx => ?_)
          exact ih key x hx ((Json.wellFormed_obj_iff.1 h).2 key x hx)

/-! ## What writing keeps of a document -/

/-- Every object below a value that is read as a token of a node has texts where a token has
them. -/
def Node.Textual (node : Node) (x : Json) : Prop :=
  ∀ keys fields t, x.at? keys = some (.obj fields) → node.at? keys = some (.token t) →
    Token.Textual fields

/-- In a value that is no object there is no token. -/
theorem Node.textual_of_fields? {x : Json} (h : x.fields? = none) : (ofJson x).Textual x := by
  intro keys fields t hx ht
  cases keys with
  | nil =>
      rw [ofJson_of_fields?_eq_none h] at ht
      cases ht
  | cons key keys =>
      rw [Json.at?_cons_of_fields?_eq_none h] at hx
      cases hx

/-- Nothing stands below a token. -/
theorem Node.textual_token_iff {fields : Fields Json} (t : Token) :
    (Node.token t).Textual (.obj fields) ↔ Token.Textual fields := by
  constructor
  · exact fun h => h [] fields t (Json.at?_nil _) rfl
  · intro h keys own u hown hu
    cases keys with
    | nil =>
        cases hown
        exact h
    | cons key keys => cases hu

/-- The tokens of a group are those of its children. -/
theorem Node.textual_group_iff {fields : Fields Json} :
    (Node.group (Group.ofFields fields)).Textual (.obj fields) ↔
      ∀ key x, fields.get? key = some x → (ofJson x).Textual x := by
  constructor
  · intro h key x hx keys own t hown ht
    refine h (key :: keys) own t ?_ ?_
    · rw [Json.at?_obj_cons, hx, Option.bind_some, hown]
    · rw [at?_group_cons, Group.get?_ofFields, hx, Option.map_some, Option.bind_some, ht]
  · intro h keys own t hown ht
    cases keys with
    | nil => cases ht
    | cons key keys =>
        rw [Json.at?_obj_cons, Option.bind_eq_some_iff] at hown
        obtain ⟨x, hx, hbelow⟩ := hown
        rw [at?_group_cons, Group.get?_ofFields, hx, Option.map_some, Option.bind_some] at ht
        exact h key x hx keys own t hbelow ht

/-- The tokens of a group are read from texts when those in each of its fields are. -/
theorem Node.textual_group_of_mem {fields : Fields Json}
    (h : ∀ field ∈ fields, (ofJson field.2).Textual field.2) :
    (Node.group (Group.ofFields fields)).Textual (.obj fields) :=
  textual_group_iff.2 fun key x hx => h (key, x) (Fields.mem_of_get? hx)

/-- What a group is written as differs from the object that it is read from at most in the order of
fields exactly when this holds of its children. -/
theorem Group.rearranged_toJson_iff {fields : Fields Json} :
    (Group.toJson (Group.ofFields fields)).Rearranged (.obj fields) ↔
      ∀ key x, fields.get? key = some x → ((Node.ofJson x).toJson).Rearranged x := by
  have hnames : Fields.names (toFields (ofFields fields)) = fields.names := by
    rw [toFields_ofFields, Fields.names, List.map_map]
    rfl
  rw [toJson, Json.rearranged_obj_iff, hnames]
  constructor
  · rintro ⟨-, hvalues⟩ key x hx
    exact hvalues key _ x (by rw [get?_toFields_ofFields, hx, Option.map_some]) hx
  · refine fun h => ⟨List.Perm.refl _, fun key y x hy hx => ?_⟩
    rw [get?_toFields_ofFields, hx] at hy
    cases hy
    exact h key x hx

/-- What a node is written as differs from the value that it is read from at most in the order of
fields exactly when all tokens in it are read from texts. -/
theorem Node.rearranged_toJson_iff {x : Json} (h : x.WellFormed) :
    ((ofJson x).toJson).Rearranged x ↔ (ofJson x).Textual x := by
  induction x using Json.objectInduction with
  | leaf x hx =>
      rw [toJson_ofJson_of_fields? hx]
      exact iff_of_true (.refl x) (textual_of_fields? hx)
  | object fields ih =>
      cases hfields : Token.ofFields? fields with
      | some t =>
          rw [ofJson_obj_of_token hfields, toJson, textual_token_iff]
          exact Token.rearranged_toJson_iff h.fields hfields
      | none =>
          rw [ofJson_obj_of_none hfields, textual_group_iff, toJson, ← Group.toJson,
            Group.rearranged_toJson_iff]
          refine forall_congr' fun key => forall_congr' fun x => forall_congr' fun hx => ?_
          exact ih key x (Fields.mem_of_get? hx) (h.of_get? hx)

/-- A document is read as a tree, and what is written for the tree is read as the same tree. It
differs from the document at most in the order of fields exactly when every object that is read as a
token has a text as its value, and as its description when it has one. -/
theorem toJson_roundTrip {document : Fields Json} (h : (Json.obj document).WellFormed) :
    ∃ g, Group.ofJson (.obj document) = .ok g ∧ Group.ofJson g.toJson = .ok g ∧
      (g.toJson.Rearranged (.obj document) ↔
        ∀ keys fields t, (Json.obj document).at? keys = some (.obj fields) →
          g.at? keys = some (.token t) → Token.Textual fields) := by
  refine ⟨Group.ofFields document, rfl, ?_, ?_⟩
  · refine congrArg Except.ok (Group.ofFields_toFields_of_children fun key x hx => ?_)
    exact Node.ofJson_toJson_ofJson ((Json.wellFormed_obj_iff.1 h).2 key x hx)
  · rw [Group.rearranged_toJson_iff]
    refine Iff.trans ?_ Node.textual_group_iff.symm
    refine forall_congr' fun key => forall_congr' fun x => forall_congr' fun hx => ?_
    exact Node.rearranged_toJson_iff (h.of_get? hx)

/-- A document with a token whose fields are in another order than they are written in, and with
objects that are nearly tokens: the value of one is a truth value, that of the other an object. -/
theorem nearTokens_roundTrip :
    let document : Fields Json :=
      [("color", .obj [("brand", .obj [("type", .str "color"), ("note", .arr [.int 1]),
          ("description", .str "The brand"), ("value", .str "#00cc92")]),
        ("flag", .obj [("value", .bool true), ("type", .str "color")])]),
       ("size", .obj [("value", .obj [("value", .str "4px"), ("type", .str "dimension")]),
          ("type", .str "group")])]
    (Json.obj document).WellFormed ∧
      ∃ g, Group.ofJson (.obj document) = .ok g ∧ Group.ofJson g.toJson = .ok g ∧
        (g.toJson.Rearranged (.obj document) ↔
          ∀ keys fields t, (Json.obj document).at? keys = some (.obj fields) →
            g.at? keys = some (.token t) → Token.Textual fields) := by
  intro document
  have hdocument : (Json.obj document).WellFormed := by
    simp [document, Json.WellFormed, Json.FieldsWellFormed, Json.AllWellFormed, Fields.WellFormed]
  exact ⟨hdocument, toJson_roundTrip hdocument⟩

end DesignTokens
