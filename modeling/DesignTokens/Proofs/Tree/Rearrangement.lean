import DesignTokens.Proofs.Json.Sameness
import DesignTokens.Proofs.Tree.KeyOrder
import DesignTokens.Proofs.Tree.Writing

/-!
# Trees of rearranged documents

Two documents that differ at most in the order of fields are read as trees that are the same up to
the order of keys: `Group.same_of_rearranged`. What decides whether an object is a token, and what
its value, type and description are, is never an object, so rearranging leaves it as it is.
-/

namespace DesignTokens

namespace Json

variable {x y : Json} {fields others : Fields Json}

theorem Rearranged.symm (h : x.Rearranged y) : y.Rearranged x := by
  induction h with
  | refl x => exact .refl x
  | obj names _ ih => exact .obj names.symm fun name x y hx hy => ih name y x hy hx

/-- A rearrangement of a well-formed document is the same document. -/
theorem Rearranged.same (h : x.Rearranged y) (hx : x.WellFormed) : x.same y = true := by
  induction h with
  | refl x => exact same_self x hx
  | obj names _ ih =>
      refine (same_obj_iff hx.fields).2 ⟨names, fun name x y hget hother => ?_⟩
      exact ih name x y hget hother (hx.of_get? hget)

/-- A rearrangement of a well-formed document is well formed. -/
theorem Rearranged.wellFormed (h : x.Rearranged y) (hx : x.WellFormed) : y.WellFormed := by
  induction h with
  | refl => exact hx
  | obj names _ ih =>
      have hnodup := Fields.wellFormed_iff.2 (names.nodup_iff.1 (Fields.wellFormed_iff.1 hx.fields))
      refine wellFormed_obj_iff.2 ⟨hnodup, fun name y hmem => ?_⟩
      have hy := hnodup.get?_eq_some_iff.2 hmem
      obtain ⟨x, hget⟩ := Fields.exists_get?_of_mem_names
        (names.mem_iff.2 (Fields.mem_names_of_get? hy))
      exact ih name x y hget hy (hx.of_get? hget)

/-- Under every name rearranged objects have rearranged values, or both have none. -/
theorem Rearranged.get? (h : (Json.obj fields).Rearranged (.obj others)) (name : String) :
    Option.Rel Rearranged (fields.get? name) (others.get? name) := by
  obtain ⟨hnames, hvalues⟩ := rearranged_obj_iff.1 h
  have hmem : name ∈ fields.names ↔ name ∈ others.names := hnames.mem_iff
  cases hx : fields.get? name with
  | none =>
      rw [Fields.get?_eq_none_iff.2 (mt hmem.2 (Fields.get?_eq_none_iff.1 hx))]
      exact .none
  | some x =>
      obtain ⟨y, hy⟩ := Fields.exists_get?_of_mem_names (hmem.1 (Fields.mem_names_of_get? hx))
      rw [hy]
      exact .some (hvalues name x y hx hy)

/-- Objects that repeat no name are rearranged when under every name they have rearranged values, or
both have none. -/
theorem rearranged_of_get? (hfields : fields.WellFormed) (hothers : others.WellFormed)
    (h : ∀ name, Option.Rel Rearranged (fields.get? name) (others.get? name)) :
    (obj fields).Rearranged (.obj others) := by
  refine .obj ((List.perm_ext_iff_of_nodup hfields hothers).2 fun name => ?_)
    fun name x y hx hy => ?_
  · have hrel := h name
    show name ∈ fields.names ↔ name ∈ others.names
    rw [← not_iff_not, ← Fields.get?_eq_none_iff, ← Fields.get?_eq_none_iff]
    generalize fields.get? name = p at hrel ⊢
    generalize others.get? name = q at hrel ⊢
    cases hrel <;> simp
  · have hrel := h name
    rw [hx, hy] at hrel
    cases hrel with
    | some hxy => exact hxy

/-- Leaving out the same names leaves rearranged objects rearranged. -/
theorem Rearranged.without (h : (Json.obj fields).Rearranged (.obj others))
    (hfields : fields.WellFormed) (hothers : others.WellFormed) (omitted : List String) :
    (Json.obj (fields.without omitted)).Rearranged (.obj (others.without omitted)) := by
  refine rearranged_of_get? (hfields.without _) (hothers.without _) fun name => ?_
  rw [Fields.get?_without, Fields.get?_without]
  by_cases hname : name ∈ omitted
  · rw [if_pos hname, if_pos hname]
    exact .none
  · rw [if_neg hname, if_neg hname]
    exact h.get? name

/-- A reading that objects do not pass reads rearranged values in the same way. -/
theorem bind_eq_of_rearranged {α : Type} {read : Json → Option α}
    (hobject : ∀ fields, read (.obj fields) = none) {p q : Option Json}
    (h : Option.Rel Rearranged p q) : p.bind read = q.bind read := by
  cases h with
  | none => rfl
  | some hvalue =>
      cases hvalue with
      | refl => rfl
      | obj => exact (hobject _).trans (hobject _).symm

end Json

/-! ## Tokens -/

namespace Token

variable {fields others : Fields Json}

/-- Rearranged objects have the same description. -/
theorem descriptionIn_of_rearranged (h : (Json.obj fields).Rearranged (.obj others)) :
    descriptionIn fields = descriptionIn others := by
  have hrel := h.get? "description"
  unfold descriptionIn
  generalize fields.get? "description" = p at hrel ⊢
  generalize others.get? "description" = q at hrel ⊢
  cases hrel with
  | none => rfl
  | some hvalue => cases hvalue <;> rfl

/-- Rearranged objects describe the same token, or both describe none. -/
theorem ofFields?_of_rearranged (hfields : (Json.obj fields).WellFormed)
    (h : (Json.obj fields).Rearranged (.obj others)) :
    Option.Rel (fun t u => t.same u = true) (ofFields? fields) (ofFields? others) := by
  have hvalue : (fields.get? "value").bind valueText? = (others.get? "value").bind valueText? :=
    Json.bind_eq_of_rearranged (fun _ => rfl) (h.get? "value")
  have htype : (fields.get? "type").bind Json.str? = (others.get? "type").bind Json.str? :=
    Json.bind_eq_of_rearranged (fun _ => rfl) (h.get? "type")
  have hdescription : (descriptionIn others).same (descriptionIn others) = true := by
    rcases descriptionIn_cases others with hnull | ⟨text, htext⟩
    · rw [hnull]
      rfl
    · rw [htext]
      exact Json.same_self _ trivial
  have hextra : (Json.obj (fields.without ownFields)).same
      (.obj (others.without ownFields)) = true := by
    have hothers := (h.wellFormed hfields).fields
    refine (h.without hfields.fields hothers ownFields).same (Json.wellFormed_obj_iff.2 ⟨?_, ?_⟩)
    · exact hfields.fields.without ownFields
    · exact fun key x hmem => (Json.wellFormed_obj_iff.1 hfields).2 key x (List.mem_filter.1 hmem).1
  unfold ofFields?
  rw [hvalue, htype, descriptionIn_of_rearranged h]
  cases (others.get? "value").bind valueText? with
  | none => exact .none
  | some value =>
      cases (others.get? "type").bind Json.str? with
      | none => exact .none
      | some type =>
          refine .some ?_
          simp only [Token.same, hdescription, hextra, Bool.and_true]
          simp [Json.same]

end Token

/-! ## Trees -/

/-- Groups are read as the same when their objects have the same names, in some order, and the nodes
under each name are the same. -/
theorem Group.same_of_children {fields others : Fields Json} (hfields : fields.WellFormed)
    (hnames : fields.names.Perm others.names)
    (h : ∀ key x y, fields.get? key = some x → others.get? key = some y →
      (Node.ofJson x).same (Node.ofJson y) = true) :
    Group.same (Group.ofFields fields) (Group.ofFields others) = true := by
  refine Group.same_iff.2 ⟨?_, fun key node hmem => ?_⟩
  · have hlength := hnames.length_eq
    rw [Fields.names, Fields.names, List.length_map, List.length_map] at hlength
    rw [ofFields_eq_map, ofFields_eq_map, List.length_map, List.length_map, hlength]
  · rw [ofFields_eq_map, List.mem_map] at hmem
    obtain ⟨⟨name, x⟩, hx, heq⟩ := hmem
    cases heq
    have hget := hfields.get?_eq_some_iff.2 hx
    obtain ⟨y, hy⟩ := Fields.exists_get?_of_mem_names
      (hnames.mem_iff.1 (Fields.mem_names_of_get? hget))
    refine ⟨Node.ofJson y, ?_, h name x y hget hy⟩
    rw [Group.child?, get?_ofFields, hy, Option.map_some]

/-- Rearranged values are read as the same node. -/
theorem Node.same_of_rearranged {x y : Json} (hx : x.WellFormed) (h : x.Rearranged y) :
    (ofJson x).same (ofJson y) = true := by
  induction x using Json.objectInduction generalizing y with
  | leaf x hleaf =>
      obtain rfl := h.eq_of_fields? hleaf
      rw [ofJson_of_fields?_eq_none hleaf]
      exact Json.same_self x hx
  | object fields ih =>
      obtain ⟨others, rfl⟩ := h.exists_fields
      have htokens := Token.ofFields?_of_rearranged hx h
      generalize hother : Token.ofFields? others = read at htokens
      cases hfields : Token.ofFields? fields with
      | none =>
          rw [hfields] at htokens
          cases htokens
          rw [ofJson_obj_of_none hfields, ofJson_obj_of_none hother]
          obtain ⟨hnames, hvalues⟩ := Json.rearranged_obj_iff.1 h
          refine Group.same_of_children hx.fields hnames fun key x y hget hy => ?_
          exact ih key x (Fields.mem_of_get? hget) (hx.of_get? hget) (hvalues key x y hget hy)
      | some t =>
          rw [hfields] at htokens
          cases htokens with
          | some hsame =>
              rw [ofJson_obj_of_token hfields, ofJson_obj_of_token hother]
              exact hsame

/-- Rearranged documents are read as the same tree. -/
theorem Group.same_of_rearranged {fields others : Fields Json}
    (hfields : (Json.obj fields).WellFormed) (h : (Json.obj fields).Rearranged (.obj others)) :
    Group.same (Group.ofFields fields) (Group.ofFields others) = true := by
  obtain ⟨hnames, hvalues⟩ := Json.rearranged_obj_iff.1 h
  refine Group.same_of_children hfields.fields hnames fun key x y hx hy => ?_
  exact Node.same_of_rearranged (hfields.of_get? hx) (hvalues key x y hx hy)

end DesignTokens
