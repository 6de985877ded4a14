import DesignTokens.Proofs.Overlay.Lookup

/-!
# The later layer and its tokens

Layers are merged as documents, and which objects are tokens is decided afterwards. A token of the
later layer keeps its value and type in the merged tree, unless the two layers complete each other
to a token on the way to it: `later_token_kept_iff`. A token of the earlier layer above it is such a
case, so there the earlier layer wins: `later_token_lost_below_token`.
-/

namespace DesignTokens

namespace Token

/-- The objects of two layers describe a token between them: the upper one, or the lower one where
the upper one says nothing, has a value that is a text or a number and a type that is a text. -/
def CompletedBy (lower upper : Fields Json) : Prop :=
  (((upper.get? "value").or (lower.get? "value")).bind valueText?).isSome ∧
    (((upper.get? "type").or (lower.get? "type")).bind Json.str?).isSome

instance (lower upper : Fields Json) : Decidable (CompletedBy lower upper) :=
  inferInstanceAs (Decidable (_ ∧ _))

/-- Whether a value is a text or a number is seen above whatever it is laid over. -/
theorem valueText?_over (x : Json) (below : Option Json) :
    valueText? (x.over below) = valueText? x := by
  obtain h | ⟨fields, merged, rfl, h⟩ := x.over_eq_self_or_objects below
  · rw [h]
  · rw [h]
    rfl

/-- Whether a value is a text is seen above whatever it is laid over. -/
theorem str?_over (x : Json) (below : Option Json) : (x.over below).str? = x.str? := by
  obtain h | ⟨fields, merged, rfl, h⟩ := x.over_eq_self_or_objects below
  · rw [h]
  · rw [h]
    rfl

variable {lower upper : Fields Json}

/-- What is read off the value under a name of an overlay is read off the upper layer, or off the
lower one where the upper one does not have the name. -/
theorem bind_get?_overlay {α : Type} {read : Json → Option α} (hupper : upper.WellFormed)
    (hread : ∀ x below, read (x.over below) = read x) (name : String) :
    ((overlay lower upper).get? name).bind read =
      ((upper.get? name).or (lower.get? name)).bind read := by
  cases hname : upper.get? name with
  | none => rw [get?_overlay_of_none hname, Option.none_or]
  | some x =>
      rw [get?_overlay_of_some hupper hname, Option.some_or, Option.bind_some, Option.bind_some,
        hread]

/-- The overlay of two objects is a token exactly when they describe one between them. -/
theorem isSome_ofFields?_overlay (hupper : upper.WellFormed) :
    (ofFields? (overlay lower upper)).isSome ↔ CompletedBy lower upper := by
  rw [CompletedBy, ← bind_get?_overlay hupper valueText?_over,
    ← bind_get?_overlay hupper str?_over, isSome_ofFields?_iff]

/-- A token stays a token over any value, with its own value and type. -/
theorem ofJson?_over {x : Json} {t : Token} (hx : x.WellFormed) (ht : ofJson? x = some t)
    (below : Option Json) :
    ∃ u, ofJson? (x.over below) = some u ∧ u.value = t.value ∧ u.type = t.type := by
  cases hbelow : below.bind Json.fields? with
  | none => exact ⟨t, by rw [Json.over_of_below hbelow, ht], rfl, rfl⟩
  | some lower =>
      obtain rfl := Json.bind_fields?_eq_some_iff.1 hbelow
      obtain ⟨fields, hfields, ht⟩ := Option.bind_eq_some_iff.1 ht
      obtain rfl := Json.fields?_eq_some_iff.1 hfields
      obtain ⟨value, type, hvalue, htype, rfl⟩ := ofFields?_eq_some_iff.1 ht
      have hread {α : Type} {read : Json → Option α} {name : String} {a : α}
          (hover : ∀ x below, read (x.over below) = read x)
          (h : (fields.get? name).bind read = some a) :
          ((overlay lower fields).get? name).bind read = some a := by
        obtain ⟨y, hy, hya⟩ := Option.bind_eq_some_iff.1 h
        rw [get?_overlay_of_some hx.fields hy, Option.bind_some, hover, hya]
      rw [Json.over_obj_obj, ofJson?_obj]
      exact ⟨_, ofFields?_eq_some_iff.2
        ⟨value, type, hread valueText?_over hvalue, hread str?_over htype, rfl⟩, rfl, rfl⟩

end Token

/-- An object that is no token is one over a value exactly when that value is an object and the two
describe a token between them. -/
theorem ofJson?_over_ne_none_iff {fields : Fields Json} {below : Option Json}
    (hfields : fields.WellFormed) (hnone : Token.ofFields? fields = none) :
    Token.ofJson? ((Json.obj fields).over below) ≠ none ↔
      ∃ lower, below = some (.obj lower) ∧ Token.CompletedBy lower fields := by
  cases hbelow : below.bind Json.fields? with
  | none =>
      rw [Json.over_of_below hbelow, Token.ofJson?_obj]
      refine iff_of_false (fun h => h hnone) ?_
      intro hcompleted
      obtain ⟨lower, rfl, -⟩ := hcompleted
      cases hbelow
  | some lower =>
      obtain rfl := Json.bind_fields?_eq_some_iff.1 hbelow
      rw [Json.over_obj_obj, Token.ofJson?_obj, ← Option.isSome_iff_ne_none,
        Token.isSome_ofFields?_overlay hfields]
      simp

/-- A token of the later layer stands in the merged tree with its value and type exactly when the
two layers describe no token between them at any key strictly between the root and it. -/
theorem later_token_kept_iff {lower upper : Fields Json} {keys : List String} {t : Token}
    (hlower : (Json.obj lower).WellFormed) (hupper : (Json.obj upper).WellFormed)
    (htoken : Group.at? (Group.ofFields upper) keys = some (.token t)) :
    (∃ u, Group.at? (mergeTrees [.document lower, .document upper]) keys = some (.token u) ∧
        u.value = t.value ∧ u.type = t.type) ↔
      ∀ above, above ≠ [] → above <+: keys → above ≠ keys → ∀ f g,
        (Json.obj lower).at? above = some (.obj f) → (Json.obj upper).at? above = some (.obj g) →
          ¬ Token.CompletedBy f g := by
  have hkeys : keys ≠ [] := by
    rintro rfl
    cases htoken
  obtain ⟨x, hx, hxt, hclear⟩ := (Group.at?_ofFields_eq_some_iff hkeys).1 htoken
  have hmerged {path : List String} {y : Json} (hy : (Json.obj upper).at? path = some y) :
      (Json.obj (overlay lower upper)).at? path = some (y.over ((Json.obj lower).at? path)) := by
    have hover : ((Json.obj upper).over (some (.obj lower))).at? path = _ := Json.at?_over hupper hy
    simpa using hover
  rw [mergeTrees_pair hlower.fields]
  constructor
  · -- A completed object would be a token of the merged tree above the one that stands there.
    rintro ⟨u, hu, -⟩ above hnil habove hne f g hf hg hcompleted
    obtain ⟨-, -, -, hmergedClear⟩ := (Group.at?_ofFields_eq_some_iff hkeys).1 hu
    have hnone := hmergedClear above hnil habove hne _ (hmerged hg)
    exact (ofJson?_over_ne_none_iff (hupper.of_at? hg).fields
      (hclear above hnil habove hne _ hg)).2 ⟨f, hf, hcompleted⟩ hnone
  · -- On the way the later layer has objects only, and no merged object there is a token.
    intro hfree
    obtain ⟨u, hu, hvalue, htype⟩ := Token.ofJson?_over (hupper.of_at? hx)
      (Node.ofJson_eq_token_iff.1 hxt) ((Json.obj lower).at? keys)
    refine ⟨u, (Group.at?_ofFields_eq_some_iff hkeys).2
      ⟨_, hmerged hx, Node.ofJson_eq_token_iff.2 hu, ?_⟩, hvalue, htype⟩
    intro above hnil habove hne z hz
    obtain ⟨g, hg⟩ := Json.fields?_of_at?_above hx habove hne
    cases (hmerged hg).symm.trans hz
    by_contra hsome
    obtain ⟨f, hf, hcompleted⟩ := (ofJson?_over_ne_none_iff (hupper.of_at? hg).fields
      (hclear above hnil habove hne _ hg)).1 hsome
    exact hfree above hnil habove hne f g hf hg hcompleted

/-- A layer with a color at the key where other layers have the group of all colors. -/
def Layer.oneColor : Fields Json :=
  [("color", .obj [("value", .str "#ffffff"), ("type", .str "color")])]

/-- A layer with the color `primary` in the group of all colors. -/
def Layer.primaryColor : Fields Json :=
  [("color", .obj [("primary", .obj [("value", .str "#00cc92"), ("type", .str "color")])])]

theorem Layer.wellFormed_oneColor : (Json.obj oneColor).WellFormed := by
  simp [oneColor, Json.WellFormed, Json.FieldsWellFormed, Fields.WellFormed]

theorem Layer.wellFormed_primaryColor : (Json.obj primaryColor).WellFormed := by
  simp [primaryColor, Json.WellFormed, Json.FieldsWellFormed, Fields.WellFormed]

/-- The color `primary` is kept when it is laid over a note at the key of its group. -/
theorem later_token_kept_over_note :
    (Json.obj [("color", .str "none yet")]).WellFormed ∧
      (Json.obj Layer.primaryColor).WellFormed ∧
      Group.at? (Group.ofFields Layer.primaryColor) ["color", "primary"] =
        some (.token ⟨.str "#00cc92", .str "color", .null, []⟩) ∧
      ∃ u, Group.at? (mergeTrees [.document [("color", .str "none yet")],
          .document Layer.primaryColor]) ["color", "primary"] = some (.token u) ∧
        u.value = .str "#00cc92" ∧ u.type = .str "color" := by
  have hlower : (Json.obj [("color", .str "none yet")]).WellFormed := by
    simp [Json.WellFormed, Json.FieldsWellFormed, Fields.WellFormed]
  have htoken : Group.at? (Group.ofFields Layer.primaryColor) ["color", "primary"] =
      some (.token ⟨.str "#00cc92", .str "color", .null, []⟩) := rfl
  refine ⟨hlower, Layer.wellFormed_primaryColor, htoken,
    (later_token_kept_iff hlower Layer.wellFormed_primaryColor htoken).2 ?_⟩
  intro above hnil _ _ f g hf _
  obtain ⟨key, keys, rfl⟩ := List.exists_cons_of_ne_nil hnil
  rw [Json.at?_obj_cons, Fields.get?_cons] at hf
  split at hf
  · cases keys <;> cases hf
  · cases hf

/-- A token of the later layer is lost when the earlier one has a token above it: the merged tree
keeps the token of the earlier layer, and nothing can be reached below a token. -/
theorem later_token_lost_below_token :
    ¬ ∀ (lower upper : Fields Json) (keys : List String) (t : Token),
      (Json.obj lower).WellFormed → (Json.obj upper).WellFormed →
        Group.at? (Group.ofFields upper) keys = some (.token t) →
          ∃ u, Group.at? (mergeTrees [.document lower, .document upper]) keys =
              some (.token u) ∧ u.value = t.value ∧ u.type = t.type := by
  intro h
  obtain ⟨u, hu, -⟩ := h Layer.oneColor Layer.primaryColor ["color", "primary"]
    ⟨.str "#00cc92", .str "color", .null, []⟩ Layer.wellFormed_oneColor
    Layer.wellFormed_primaryColor rfl
  have hlost : Group.at? (mergeTrees [.document Layer.oneColor, .document Layer.primaryColor])
      ["color", "primary"] = none := rfl
  cases hlost.symm.trans hu

end DesignTokens
