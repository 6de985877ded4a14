import DesignTokens.Proofs.Overlay.Lookup

/-!
# Overlays by key path

What the overlay of two documents holds at a key path is settled by what they hold there and by what
stands on the way: `mergeDocuments_at`. The keys of every merged object are those of the lower
document in their order, and then the new ones of the upper document in theirs (`names_overlay`).
-/

namespace DesignTokens

variable {lower upper : Fields Json} {key : String} {path : List String}

namespace Json

variable {x y : Json} {below : Option Json}

/-- A value that is no object stands on the way to the end of a key path. -/
def Blocks (x : Json) (path : List String) : Prop :=
  ∃ above y, above <+: path ∧ above ≠ path ∧ x.at? above = some y ∧ y.fields? = none

/-- The names of the object at a key path, and none where no object stands. -/
def namesAt (x : Json) (path : List String) : List String :=
  (((x.at? path).bind fields?).map Fields.names).getD []

theorem namesAt_of_obj {fields : Fields Json} (h : x.at? path = some (.obj fields)) :
    x.namesAt path = fields.names := by
  rw [namesAt, h]
  rfl

theorem namesAt_of_bind_eq_none (h : (x.at? path).bind fields? = none) : x.namesAt path = [] := by
  rw [namesAt, h]
  rfl

/-- A value that is no object blocks every key path but the empty one. -/
theorem blocks_of_fields?_eq_none (h : x.fields? = none) (key : String) (path : List String) :
    x.Blocks (key :: path) :=
  ⟨[], x, List.nil_prefix, (List.cons_ne_nil key path).symm, at?_nil x, h⟩

/-- A key path is blocked from an object on when it is blocked below the object's field. -/
theorem blocks_obj_cons_iff {fields : Fields Json} :
    (obj fields).Blocks (key :: path) ↔
      ∃ child, fields.get? key = some child ∧ child.Blocks path := by
  constructor
  · intro h
    obtain ⟨above, y, habove, hne, hy, hleaf⟩ := h
    cases above with
    | nil =>
        cases hy
        cases hleaf
    | cons first above =>
        obtain ⟨rfl, hfront⟩ := List.cons_prefix_cons.1 habove
        obtain ⟨child, hchild, hbelow⟩ := Option.bind_eq_some_iff.1 hy
        exact ⟨child, hchild, above, y, hfront, fun heq => hne (heq ▸ rfl), hbelow, hleaf⟩
  · intro h
    obtain ⟨child, hchild, above, y, habove, hne, hy, hleaf⟩ := h
    refine ⟨key :: above, y, List.cons_prefix_cons.2 ⟨rfl, habove⟩, ?_, ?_, hleaf⟩
    · simpa using hne
    · rw [at?_obj_cons, hchild, Option.bind_some, hy]

/-- At a blocked key path an overlay holds nothing, whatever it is laid over. -/
theorem at?_over_of_blocks (hx : x.WellFormed) (h : x.Blocks path) (below : Option Json) :
    (x.over below).at? path = none := by
  obtain ⟨above, y, ⟨rest, rfl⟩, hne, hy, hleaf⟩ := h
  have habove : (x.over below).at? above = some (y.over (below.bind fun z => z.at? above)) :=
    at?_over hx hy
  rw [over_of_fields?_eq_none hleaf] at habove
  rw [at?_append, habove, Option.bind_some]
  cases rest with
  | nil => simp at hne
  | cons key rest => exact at?_cons_of_fields?_eq_none hleaf key rest

/-- At a key path that the upper value leaves open, an overlay holds what the lower one does. -/
theorem at?_over_of_open (hx : x.WellFormed) (hnone : x.at? path = none) (h : ¬ x.Blocks path) :
    (x.over below).at? path = below.bind fun z => z.at? path := by
  induction path generalizing x below with
  | nil =>
      rw [at?_nil] at hnone
      cases hnone
  | cons key path ih =>
      cases x using objectCases with
      | leaf x hleaf => exact absurd (blocks_of_fields?_eq_none hleaf key path) h
      | object fields =>
          cases hbelow : below.bind fields? with
          | none =>
              rw [over_of_below hbelow, hnone]
              cases below with
              | none => rfl
              | some z => exact (at?_cons_of_fields?_eq_none hbelow key path).symm
          | some lower =>
              obtain rfl := bind_fields?_eq_some_iff.1 hbelow
              rw [over_obj_obj, at?_obj_cons, Option.bind_some, at?_obj_cons]
              cases hchild : fields.get? key with
              | none => rw [get?_overlay_of_none hchild]
              | some child =>
                  rw [at?_obj_cons, hchild, Option.bind_some] at hnone
                  rw [get?_overlay_of_some hx.fields hchild, Option.bind_some]
                  refine ih (hx.of_get? hchild) hnone fun hblocks => h ?_
                  exact blocks_obj_cons_iff.2 ⟨child, hchild, hblocks⟩

end Json

/-! ## The order of keys -/

/-- A name that is inserted comes last when it is new. -/
theorem Fields.names_insert {α : Type} (fields : Fields α) (name : String) (value : α) :
    (fields.insert name value).names =
      fields.names ++ [name].filter fun other => other ∉ fields.names := by
  by_cases h : name ∈ fields.names
  · simp [names_insert_of_mem h value, h]
  · simp [insert_of_not_mem h value, h]

/-- The names of an overlay are those of the lower layer, then the new ones of the upper layer. -/
theorem names_overlay (hupper : upper.WellFormed) :
    (overlay lower upper).names =
      lower.names ++ upper.names.filter fun name => name ∉ lower.names := by
  induction upper generalizing lower with
  | nil => simp [overlay]
  | cons field rest ih =>
      obtain ⟨name, x⟩ := field
      obtain ⟨hname, hrest⟩ := Fields.wellFormed_cons.1 hupper
      -- The name is not repeated, so having inserted it makes no later name of the layer old.
      have hlater : ∀ other ∈ Fields.names rest,
          decide (other ∉ (lower.insert name (x.over (lower.get? name))).names) =
            decide (other ∉ lower.names) := by
        intro other hother
        have hne : other ≠ name := fun heq => hname (heq ▸ hother)
        rw [Fields.names_insert]
        by_cases hold : name ∈ lower.names <;> simp [hold, hne]
      rw [overlay_cons, ih hrest, List.filter_congr hlater, Fields.names_insert, Fields.names_cons,
        List.append_assoc, ← List.filter_append]
      rfl

/-- The names of an object laid over another value that may be there. -/
theorem Json.names_over {fields merged : Fields Json} {below : Option Json}
    (hfields : fields.WellFormed) (h : (Json.obj fields).over below = .obj merged) :
    merged.names =
      ((below.bind Json.fields?).map Fields.names).getD [] ++
        fields.names.filter fun name =>
          name ∉ ((below.bind Json.fields?).map Fields.names).getD [] := by
  cases hbelow : below.bind Json.fields? with
  | none =>
      rw [Json.over_of_below hbelow] at h
      cases h
      simp
  | some lower =>
      obtain rfl := Json.bind_fields?_eq_some_iff.1 hbelow
      rw [Json.over_obj_obj] at h
      cases h
      exact names_overlay hfields

/-- An object that an overlay holds at a key path has the names of the lower value's object there
first, and then the new names of the upper value's object. -/
theorem Json.names_at_over {x y : Json} {path : List String} {fields : Fields Json}
    (hx : x.WellFormed) (h : (x.over (some y)).at? path = some (.obj fields)) :
    Fields.names fields =
      y.namesAt path ++ (x.namesAt path).filter fun name => name ∉ y.namesAt path := by
  cases hupper : x.at? path with
  | none =>
      have hnone : x.namesAt path = [] := namesAt_of_bind_eq_none (by rw [hupper]; rfl)
      by_cases hblocks : x.Blocks path
      · cases (at?_over_of_blocks hx hblocks _).symm.trans h
      · rw [at?_over_of_open hx hupper hblocks, Option.bind_some] at h
        rw [hnone, namesAt_of_obj h]
        simp
  | some upper =>
      rw [at?_over hx hupper, Option.bind_some] at h
      have hover := Option.some.inj h
      cases upper using objectCases with
      | leaf upper hleaf =>
          rw [over_of_fields?_eq_none hleaf] at hover
          subst hover
          cases hleaf
      | object own =>
          rw [namesAt_of_obj hupper]
          exact names_over (hx.of_at? hupper).fields hover

/-! ## Two documents -/

theorem mergeDocuments_pair (hlower : lower.WellFormed) :
    mergeDocuments [.document lower, .document upper] = overlay lower upper := by
  show overlay (overlay [] lower) upper = _
  rw [overlay_nil hlower]

/-- What two merged documents hold at a key path. A value of the upper document that is no object
stands as it is, and where it has an object there is one. Where the upper document has nothing,
there is nothing when it has a value that is no object on the way, and what the lower document has
there otherwise. Every merged object has the names of the lower document's object first, in their
order, and then the new names of the upper document's object in theirs. -/
theorem mergeDocuments_at (hlower : (Json.obj lower).WellFormed)
    (hupper : (Json.obj upper).WellFormed) :
    let merged := Json.obj (mergeDocuments [.document lower, .document upper])
    (∀ path, path ≠ [] →
        (∀ x, (Json.obj upper).at? path = some x → x.fields? = none →
          merged.at? path = some x) ∧
        (∀ fields, (Json.obj upper).at? path = some (.obj fields) →
          ∃ both, merged.at? path = some (.obj both)) ∧
        ((Json.obj upper).at? path = none → (Json.obj upper).Blocks path →
          merged.at? path = none) ∧
        ((Json.obj upper).at? path = none → ¬ (Json.obj upper).Blocks path →
          merged.at? path = (Json.obj lower).at? path)) ∧
      ∀ path fields, merged.at? path = some (.obj fields) →
        Fields.names fields = (Json.obj lower).namesAt path ++
          ((Json.obj upper).namesAt path).filter fun name =>
            name ∉ (Json.obj lower).namesAt path := by
  intro merged
  have hmerged : merged = (Json.obj upper).over (some (.obj lower)) := by
    rw [Json.over_obj_obj]
    exact congrArg Json.obj (mergeDocuments_pair hlower.fields)
  have hheld {path : List String} {x : Json} (hx : (Json.obj upper).at? path = some x) :
      merged.at? path = some (x.over ((Json.obj lower).at? path)) := by
    rw [hmerged, Json.at?_over hupper hx, Option.bind_some]
  refine ⟨fun path _ => ⟨?_, ?_, ?_, ?_⟩, fun path fields hfields => ?_⟩
  · intro x hx hleaf
    rw [hheld hx, Json.over_of_fields?_eq_none hleaf]
  · intro fields hfields
    rw [hheld hfields]
    obtain h | ⟨-, both, -, h⟩ := (Json.obj fields).over_eq_self_or_objects
      ((Json.obj lower).at? path)
    · exact ⟨fields, by rw [h]⟩
    · exact ⟨both, by rw [h]⟩
  · intro _ hblocks
    rw [hmerged, Json.at?_over_of_blocks hupper hblocks]
  · intro hnone hblocks
    rw [hmerged, Json.at?_over_of_open hupper hnone hblocks, Option.bind_some]
  · rw [hmerged] at hfields
    exact Json.names_at_over hupper hfields

namespace Layer

/-- A document with an object under `a` that is replaced, an object under `b` and a number. -/
def base : Fields Json :=
  [("a", .obj [("x", .int 1)]), ("b", .obj [("y", .int 2), ("z", .null)]), ("n", .int 3)]

/-- A document with a number under `a`, more keys under `b`, and an object where a number is. -/
def patch : Fields Json :=
  [("m", .null), ("n", .obj [("k", .bool true)]), ("b", .obj [("w", .int 4), ("z", .int 5)]),
   ("a", .int 6)]

theorem wellFormed_base : (Json.obj base).WellFormed := by
  simp [base, Json.WellFormed, Json.FieldsWellFormed, Fields.WellFormed]

theorem wellFormed_patch : (Json.obj patch).WellFormed := by
  simp [patch, Json.WellFormed, Json.FieldsWellFormed, Fields.WellFormed]

end Layer

open Layer in
/-- Two documents in which an object meets a number, both ways, and an object meets an object. -/
theorem base_patched :
    (Json.obj base).WellFormed ∧ (Json.obj patch).WellFormed ∧
      let merged := Json.obj (mergeDocuments [.document base, .document patch])
      merged.at? ["a"] = some (.int 6) ∧ merged.at? ["a", "x"] = none ∧
        merged.at? ["b", "y"] = some (.int 2) ∧
        ∀ fields, merged.at? ["b"] = some (.obj fields) →
          Fields.names fields = ["y", "z", "w"] := by
  obtain ⟨hpaths, hnames⟩ := mergeDocuments_at wellFormed_base wellFormed_patch
  refine ⟨wellFormed_base, wellFormed_patch, ?_, ?_, ?_, fun fields => hnames ["b"] fields⟩
  · exact (hpaths ["a"] (by decide)).1 (.int 6) rfl rfl
  · exact (hpaths ["a", "x"] (by decide)).2.2.1 rfl
      ⟨["a"], .int 6, by decide, by decide, rfl, rfl⟩
  · refine (hpaths ["b", "y"] (by decide)).2.2.2 rfl ?_
    simp only [patch, Json.blocks_obj_cons_iff]
    rintro ⟨child, hchild, hblocks⟩
    cases hchild
    obtain ⟨last, hlast, -⟩ := Json.blocks_obj_cons_iff.1 hblocks
    cases hlast

end DesignTokens
