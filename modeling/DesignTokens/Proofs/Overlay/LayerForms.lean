import DesignTokens.Proofs.Overlay.Associativity
import DesignTokens.Proofs.Tree.Rearrangement
import Mathlib.Data.List.Forall2

/-!
# Raw and parsed layers

A layer may be given as a raw document or as the tree that is read from it. A tree is written as a
document before it is merged, which moves the fields of its tokens. Rearranged layers are merged to
rearranged documents (`Json.rearrangedFields_overlayAll`), and these are read as the same tree. So
when the tokens have texts as values and descriptions, the merged trees are the same in whatever
form each layer is given: `mergeTrees_same_of_forms`.
-/

namespace DesignTokens

/-! ## Overlays of rearranged documents -/

namespace Json

variable {x y : Json} {a b c d : Fields Json}

/-- Under one name related values are merged to related values when the upper ones keep the relation
over the lower ones. -/
theorem rel_overAt {R : Json → Json → Prop} {p q r s : Option Json} (hpq : Option.Rel R p q)
    (hrs : Option.Rel R r s)
    (h : ∀ u v, r = some u → s = some v → R u v → R (u.over p) (v.over q)) :
    Option.Rel R (overAt p r) (overAt q s) := by
  cases hrs with
  | none => exact hpq
  | some huv => exact .some (h _ _ rfl rfl huv)

/-- Rearranged values laid over rearranged values are rearranged. -/
theorem Rearranged.over {p q : Option Json} (h : x.Rearranged y) (hx : x.WellFormed)
    (hpq : Option.Rel Rearranged p q) (hp : ∀ z ∈ p, z.WellFormed) :
    (x.over p).Rearranged (y.over q) := by
  induction x using objectInduction generalizing y p q with
  | leaf x hleaf =>
      obtain rfl := h.eq_of_fields? hleaf
      rw [over_of_fields?_eq_none hleaf, over_of_fields?_eq_none hleaf]
      exact .refl x
  | object b ih =>
      obtain ⟨d, rfl⟩ := h.exists_fields
      have hlower : p.bind fields? = none → q.bind fields? = none := by
        intro hnone
        cases hpq with
        | none => rfl
        | some hvalue => cases hvalue <;> first | exact hnone | cases hnone
      cases hfields : p.bind fields? with
      | none =>
          rw [over_of_below hfields, over_of_below (hlower hfields)]
          exact h
      | some a =>
          obtain rfl := bind_fields?_eq_some_iff.1 hfields
          cases hpq with
          | some hvalue =>
              obtain ⟨c, rfl⟩ := hvalue.exists_fields
              have ha := hp _ rfl
              have hc := hvalue.wellFormed ha
              have hd := h.wellFormed hx
              rw [over_obj_obj, over_obj_obj]
              refine rearranged_of_get? (wellFormed_overlay ha hx).fields
                (wellFormed_overlay hc hd).fields fun name => ?_
              rw [get?_overlay hx.fields, get?_overlay hd.fields]
              refine rel_overAt (hvalue.get? name) (h.get? name) fun u v hu _ huv => ?_
              exact ih name u (Fields.mem_of_get? hu) huv (hx.of_get? hu) (hvalue.get? name)
                fun z hz => ha.of_get? hz

/-- The first object is well formed, and the second one is a rearrangement of it. -/
def RearrangedFields (fields others : Fields Json) : Prop :=
  (obj fields).WellFormed ∧ (obj fields).Rearranged (.obj others)

/-- One more layer, in either order of its fields, keeps merged objects rearranged. -/
theorem RearrangedFields.overlay (hac : RearrangedFields a c) (hbd : RearrangedFields b d) :
    RearrangedFields (overlay a b) (overlay c d) := by
  refine ⟨wellFormed_overlay hac.1 hbd.1, ?_⟩
  rw [← over_obj_obj, ← over_obj_obj]
  exact hbd.2.over hbd.1 (.some hac.2) fun z hz => Option.some.inj hz ▸ hac.1

/-- Rearranged layers, however many, are merged to rearranged documents. -/
theorem rearrangedFields_overlayAll {layers others : List (Fields Json)}
    (h : List.Forall₂ RearrangedFields layers others) :
    RearrangedFields (overlayAll layers) (overlayAll others) := by
  have hempty : RearrangedFields [] [] := by
    refine ⟨wellFormed_obj_iff.2 ⟨List.nodup_nil, fun _ _ hmem => nomatch hmem⟩, .refl _⟩
  exact List.rel_foldl (fun _ _ hac _ _ hbd => hac.overlay hbd) hempty h

end Json

/-! ## The forms of a layer -/

namespace Layer

variable {document : Fields Json} {layer other : Layer}

/-- The layer is the document as it stands or the tree that is read from it. -/
inductive FormOf (document : Fields Json) : Layer → Prop where
  | document : FormOf document (.document document)
  | tree : FormOf document (.tree (Group.ofFields document))

/-- What is written for the tree of a document whose tokens have texts is a rearrangement of the
document. -/
theorem rearranged_toFields (hdocument : (Json.obj document).WellFormed)
    (htexts : (Node.group (Group.ofFields document)).Textual (.obj document)) :
    (Json.obj document).Rearranged (.obj (Group.toFields (Group.ofFields document))) := by
  refine (Group.rearranged_toJson_iff.2 fun key x hx => ?_).symm
  refine (Node.rearranged_toJson_iff (hdocument.of_get? hx)).2 ?_
  exact Node.textual_group_iff.1 htexts key x hx

/-- In any two forms a layer gives rearranged documents. -/
theorem FormOf.rearrangedFields (hlayer : FormOf document layer) (hother : FormOf document other)
    (hdocument : (Json.obj document).WellFormed)
    (htexts : (Node.group (Group.ofFields document)).Textual (.obj document)) :
    Json.RearrangedFields layer.fields other.fields := by
  have hwritten := rearranged_toFields hdocument htexts
  cases hlayer with
  | document =>
      cases hother with
      | document => exact ⟨hdocument, .refl _⟩
      | tree => exact ⟨hdocument, hwritten⟩
  | tree =>
      cases hother with
      | document => exact ⟨hwritten.wellFormed hdocument, hwritten.symm⟩
      | tree => exact ⟨hwritten.wellFormed hdocument, .refl _⟩

/-- Layers in two forms each give rearranged documents one by one. -/
theorem forall₂_rearrangedFields {documents : List (Fields Json)} {layers others : List Layer}
    (hlayers : List.Forall₂ FormOf documents layers)
    (hothers : List.Forall₂ FormOf documents others)
    (hdocuments : ∀ document ∈ documents, (Json.obj document).WellFormed ∧
      (Node.group (Group.ofFields document)).Textual (.obj document)) :
    List.Forall₂ Json.RearrangedFields (layers.map Layer.fields) (others.map Layer.fields) := by
  induction hlayers generalizing others with
  | nil =>
      cases hothers
      exact .nil
  | cons hlayer _ ih =>
      cases hothers with
      | cons hother hrest =>
          obtain ⟨⟨hdocument, htexts⟩, hdocuments⟩ := List.forall_mem_cons.1 hdocuments
          exact .cons (hlayer.rearrangedFields hother hdocument htexts) (ih hrest hdocuments)

end Layer

/-- Take any number of documents in which every object that is read as a token has a text as its
value, and as its description when it has one. The merged trees are the same up to the order of keys
in whatever form the layers are given: all as documents, all as the trees that are read from them,
or in any mixture of the two. -/
theorem mergeTrees_same_of_forms {documents : List (Fields Json)} {layers others : List Layer}
    (hdocuments : ∀ document ∈ documents, (Json.obj document).WellFormed)
    (htexts : ∀ document ∈ documents, ∀ keys fields t,
      (Json.obj document).at? keys = some (.obj fields) →
        Group.at? (Group.ofFields document) keys = some (.token t) → Token.Textual fields)
    (hlayers : List.Forall₂ Layer.FormOf documents layers)
    (hothers : List.Forall₂ Layer.FormOf documents others) :
    Group.same (mergeTrees layers) (mergeTrees others) = true := by
  have hforms := Layer.forall₂_rearrangedFields hlayers hothers
    fun document hmem => ⟨hdocuments document hmem, htexts document hmem⟩
  have hmerged := Json.rearrangedFields_overlayAll hforms
  exact Group.same_of_rearranged hmerged.1 hmerged.2

namespace Layer

/-- A document with a token whose fields are in another order than they are written in, and with a
value that is no token yet. -/
def brand : Fields Json :=
  [("color", .obj [("brand", .obj [("type", .str "color"), ("note", .arr [.int 1]),
    ("value", .str "#00cc92")]), ("ink", .obj [("value", .str "#111111")])])]

/-- A document that changes the value of the token and completes the other value to a token. -/
def inked : Fields Json :=
  [("color", .obj [("ink", .obj [("type", .str "color")]),
    ("brand", .obj [("value", .real ⟨0x3ff0000000000000⟩)])])]

theorem wellFormed_brand : (Json.obj brand).WellFormed := by
  simp [brand, Json.WellFormed, Json.FieldsWellFormed, Json.AllWellFormed, Fields.WellFormed]

theorem wellFormed_inked : (Json.obj inked).WellFormed := by
  simp [inked, Json.WellFormed, Json.FieldsWellFormed, Fields.WellFormed]

/-- The only token of the first document is read from texts. -/
theorem textual_brand : (Node.group (Group.ofFields brand)).Textual (.obj brand) := by
  refine Node.textual_group_of_mem (List.forall_mem_singleton.2 ?_)
  refine Node.textual_group_of_mem (List.forall_mem_cons.2 ⟨?_, List.forall_mem_singleton.2 ?_⟩)
  · exact (Node.textual_token_iff _).2 ⟨⟨_, rfl⟩, fun _ hnone => nomatch hnone⟩
  · exact Node.textual_group_of_mem (List.forall_mem_singleton.2 (Node.textual_of_fields? rfl))

/-- The second document has no token. -/
theorem textual_inked : (Node.group (Group.ofFields inked)).Textual (.obj inked) := by
  refine Node.textual_group_of_mem (List.forall_mem_singleton.2 ?_)
  refine Node.textual_group_of_mem (List.forall_mem_cons.2 ⟨?_, List.forall_mem_singleton.2 ?_⟩)
  all_goals
    exact Node.textual_group_of_mem (List.forall_mem_singleton.2 (Node.textual_of_fields? rfl))

end Layer

open Layer in
/-- The first of the two documents is parsed, and then the second one instead. The merged trees are
the same, with the changed token and the completed one. -/
theorem brand_inked_either_form :
    (∀ document ∈ [brand, inked], (Json.obj document).WellFormed) ∧
      (∀ document ∈ [brand, inked], ∀ keys fields t,
        (Json.obj document).at? keys = some (.obj fields) →
          Group.at? (Group.ofFields document) keys = some (.token t) → Token.Textual fields) ∧
      Group.same (mergeTrees [.tree (Group.ofFields brand), .document inked])
        (mergeTrees [.document brand, .tree (Group.ofFields inked)]) = true := by
  have hdocuments : ∀ document ∈ [brand, inked], (Json.obj document).WellFormed := by
    simp [wellFormed_brand, wellFormed_inked]
  have htexts : ∀ document ∈ [brand, inked],
      (Node.group (Group.ofFields document)).Textual (.obj document) := by
    simp [textual_brand, textual_inked]
  refine ⟨hdocuments, htexts, mergeTrees_same_of_forms hdocuments htexts ?_ ?_⟩
  · exact .cons .tree (.cons .document .nil)
  · exact .cons .document (.cons .tree .nil)

end DesignTokens
