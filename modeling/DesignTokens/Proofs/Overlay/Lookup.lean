import DesignTokens.Overlay
import DesignTokens.Proofs.Tree.Reading

/-!
# What an overlay holds under a name and at a key path

Objects are merged and anything else is replaced. Under every name an overlay holds what the upper
layer has there, laid over what the lower layer has there (`get?_overlay_of_some`), and so it does
at every key path of the upper layer (`at?_over`).
-/

namespace DesignTokens

variable {lower upper : Fields Json} {key : String}

namespace Json

@[simp] theorem over_obj_obj (lower fields : Fields Json) :
    Json.over (some (.obj lower)) (.obj fields) = .obj (overlay lower fields) := by
  rw [Json.over]

/-- A value that is no object replaces what is below it. -/
theorem over_of_fields?_eq_none {x : Json} (h : x.fields? = none) (below : Option Json) :
    x.over below = x := by
  cases x <;> first | rfl | cases h

/-- Any value replaces what is no object. -/
theorem over_of_below {below : Option Json} (h : below.bind Json.fields? = none) (x : Json) :
    x.over below = x := by
  cases x using objectCases with
  | leaf x hx => exact over_of_fields?_eq_none hx below
  | object fields =>
      rw [Json.over]
      rintro lower rfl
      cases h

/-- Any value replaces one that is no object. -/
theorem over_some_of_fields?_eq_none {y : Json} (h : y.fields? = none) (x : Json) :
    x.over (some y) = x := by
  have hbelow : (some y).bind Json.fields? = none := h
  exact over_of_below hbelow x

@[simp] theorem over_none (x : Json) : x.over none = x :=
  over_of_below rfl x

/-- A value is laid over another one unchanged, unless both are objects. -/
theorem over_eq_self_or_objects (x : Json) (below : Option Json) :
    x.over below = x ∨ ∃ fields merged, x = .obj fields ∧ x.over below = .obj merged := by
  cases x using objectCases with
  | leaf x hx => exact Or.inl (over_of_fields?_eq_none hx below)
  | object fields =>
      cases hbelow : below.bind Json.fields? with
      | none => exact Or.inl (over_of_below hbelow _)
      | some lower =>
          obtain rfl := bind_fields?_eq_some_iff.1 hbelow
          exact Or.inr ⟨fields, _, rfl, over_obj_obj lower fields⟩

end Json

/-! ## Names -/

theorem overlay_cons (lower : Fields Json) (key : String) (x : Json) (rest : Fields Json) :
    overlay lower ((key, x) :: rest) =
      overlay (lower.insert key (x.over (lower.get? key))) rest := by
  rw [overlay]

/-- Under a name that the upper layer does not have, an overlay holds what the lower layer does. -/
theorem get?_overlay_of_none (h : upper.get? key = none) :
    (overlay lower upper).get? key = lower.get? key := by
  induction upper generalizing lower with
  | nil => rw [overlay]
  | cons field rest ih =>
      obtain ⟨name, x⟩ := field
      have hne : name ≠ key := by
        rintro rfl
        simp at h
      rw [Fields.get?_cons_of_ne hne] at h
      rw [overlay_cons, ih h, Fields.get?_insert, if_neg hne]

/-- Under a name of the upper layer, an overlay holds the value there laid over what the lower layer
has. -/
theorem get?_overlay_of_some (hupper : upper.WellFormed) {x : Json} (h : upper.get? key = some x) :
    (overlay lower upper).get? key = some (x.over (lower.get? key)) := by
  induction upper generalizing lower with
  | nil => cases h
  | cons field rest ih =>
      obtain ⟨name, y⟩ := field
      obtain ⟨hname, hrest⟩ := Fields.wellFormed_cons.1 hupper
      rw [overlay_cons]
      by_cases heq : name = key
      · -- The rest of the layer does not repeat the name, so it leaves the value in place.
        subst heq
        rw [Fields.get?_cons_self] at h
        cases h
        rw [get?_overlay_of_none (Fields.get?_eq_none_iff.2 hname), Fields.get?_insert, if_pos rfl]
      · rw [Fields.get?_cons_of_ne heq] at h
        rw [ih hrest h, Fields.get?_insert, if_neg heq]

/-- Fields are laid over an empty object unchanged. -/
theorem overlay_nil (hupper : upper.WellFormed) : overlay [] upper = upper := by
  -- Along the layer no field to come has a name that is already there.
  suffices h : ∀ rest done : Fields Json, Fields.WellFormed (done ++ rest) →
      overlay done rest = done ++ rest from h upper [] hupper
  intro rest
  induction rest with
  | nil => simp [overlay]
  | cons field rest ih =>
      intro done hdone
      obtain ⟨name, x⟩ := field
      have hname : name ∉ done.names := by
        intro hmem
        rw [Fields.wellFormed_iff, Fields.names_append] at hdone
        exact (List.nodup_append.1 hdone).2.2 name hmem name List.mem_cons_self rfl
      rw [overlay_cons, Fields.get?_eq_none_iff.2 hname, Json.over_none,
        Fields.insert_of_not_mem hname, ih _ (by simpa using hdone)]
      simp

/-! ## Well-formed overlays -/

/-- Fields whose values stay well formed over anything make a well-formed overlay. -/
theorem wellFormed_overlay_of_values (hlower : (Json.obj lower).WellFormed)
    (hvalues : ∀ key x, (key, x) ∈ upper → ∀ below : Option Json,
      (∀ z ∈ below, z.WellFormed) → (x.over below).WellFormed) :
    (Json.obj (overlay lower upper)).WellFormed := by
  induction upper generalizing lower with
  | nil => simpa [overlay] using hlower
  | cons field rest ih =>
      obtain ⟨name, x⟩ := field
      rw [overlay_cons]
      refine ih (Json.wellFormed_obj_iff.2 ⟨hlower.fields.insert _ _, fun key y hy => ?_⟩)
        fun key y hy => hvalues key y (List.mem_cons_of_mem _ hy)
      rcases Fields.mem_insert hy with heq | hmem
      · cases heq
        exact hvalues name x List.mem_cons_self _ fun z hz => hlower.of_get? hz
      · exact (Json.wellFormed_obj_iff.1 hlower).2 key y hmem

/-- A well-formed value over a well-formed one is well formed. -/
theorem Json.WellFormed.over {x : Json} {below : Option Json} (hx : x.WellFormed)
    (hbelow : ∀ z ∈ below, z.WellFormed) : (x.over below).WellFormed := by
  induction x using Json.objectInduction generalizing below with
  | leaf x hleaf => rwa [Json.over_of_fields?_eq_none hleaf]
  | object fields ih =>
      cases hfields : below.bind Json.fields? with
      | none => rwa [Json.over_of_below hfields]
      | some lower =>
          obtain rfl := Json.bind_fields?_eq_some_iff.1 hfields
          rw [Json.over_obj_obj]
          exact wellFormed_overlay_of_values (hbelow _ rfl) fun key y hy _ =>
            ih key y hy ((Json.wellFormed_obj_iff.1 hx).2 key y hy)

/-- The overlay of well-formed documents is well formed. -/
theorem wellFormed_overlay (hlower : (Json.obj lower).WellFormed)
    (hupper : (Json.obj upper).WellFormed) : (Json.obj (overlay lower upper)).WellFormed :=
  wellFormed_overlay_of_values hlower fun key x hx _ =>
    Json.WellFormed.over ((Json.wellFormed_obj_iff.1 hupper).2 key x hx)

/-! ## Key paths -/

/-- At a key path of the upper value, an overlay holds the value there laid over what the lower
value has at that path. -/
theorem Json.at?_over {x y : Json} {below : Option Json} {path : List String} (hx : x.WellFormed)
    (h : x.at? path = some y) :
    (x.over below).at? path = some (y.over (below.bind fun z => z.at? path)) := by
  induction path generalizing x below with
  | nil =>
      cases (Json.at?_nil x).symm.trans h
      simp
  | cons key path ih =>
      obtain ⟨fields, rfl⟩ := Json.fields?_of_at?_cons h
      obtain ⟨child, hchild, hrest⟩ := Option.bind_eq_some_iff.1 h
      cases hbelow : below.bind Json.fields? with
      | none =>
          have hnone : (below.bind fun z => z.at? (key :: path)) = none := by
            cases below with
            | none => rfl
            | some z => exact Json.at?_cons_of_fields?_eq_none hbelow key path
          rw [Json.over_of_below hbelow, hnone, Json.over_none, h]
      | some lower =>
          obtain rfl := Json.bind_fields?_eq_some_iff.1 hbelow
          rw [Json.over_obj_obj, Json.at?_obj_cons, get?_overlay_of_some hx.fields hchild,
            Option.bind_some, ih (hx.of_get? hchild) hrest]
          simp

/-- The merged tree of two documents is read from their overlay. -/
theorem mergeTrees_pair (hlower : lower.WellFormed) :
    mergeTrees [.document lower, .document upper] = Group.ofFields (overlay lower upper) := by
  show Group.ofFields (overlay (overlay [] lower) upper) = _
  rw [overlay_nil hlower]

end DesignTokens
