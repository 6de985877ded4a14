import DesignTokens.Proofs.Overlay.KeyPaths

/-!
# How layers are grouped

Three layers may be merged two at a time in either way, unless the middle one has a value that is no
object where both others have objects: merged last, the upper object lies over that value, and
merged first it lies over the lower object. `over_assoc_iff` says that nothing else can tell the two
groupings apart, the order of keys included, and `mergeDocuments_assoc` draws the conclusion for
documents.
-/

namespace DesignTokens

variable {a b c : Fields Json} {key : String} {path : List String}

/-! ## Names and values of merged objects -/

/-- What stands under a name of a merged object, given what stands there below and above. -/
def Json.overAt (below : Option Json) : Option Json → Option Json
  | none => below
  | some x => some (x.over below)

/-- Under every name an overlay holds what the upper layer has there, laid over what the lower layer
has. -/
theorem get?_overlay (hb : b.WellFormed) (key : String) :
    (overlay a b).get? key = Json.overAt (a.get? key) (b.get? key) := by
  cases hkey : b.get? key with
  | none => exact get?_overlay_of_none hkey
  | some x => exact get?_overlay_of_some hb hkey

/-- Values under one name may be grouped freely when all three are there and may be. -/
theorem Json.overAt_assoc {x y z : Option Json}
    (h : ∀ x' ∈ x, ∀ y' ∈ y, ∀ z' ∈ z,
      z'.over (some (y'.over (some x'))) = (z'.over (some y')).over (some x')) :
    overAt (overAt x y) z = overAt x (overAt y z) := by
  cases z with
  | none => rfl
  | some z =>
      cases y with
      | none => exact congrArg (fun z : Json => some (z.over x)) (over_none z).symm
      | some y =>
          cases x with
          | none =>
              show some (z.over (some (y.over none))) = some ((z.over (some y)).over none)
              rw [over_none, over_none]
          | some x => exact congrArg some (h x rfl y rfl z rfl)

/-- However three objects are grouped, the merged one has the names of the lowest in their order,
then the new names of the middle one, and then the new names of the uppermost one. -/
theorem names_overlay_assoc (hb : b.WellFormed) (hc : c.WellFormed)
    (hbc : (overlay b c).WellFormed) :
    (overlay (overlay a b) c).names = (overlay a (overlay b c)).names := by
  have hnew : c.names.filter (fun name => name ∉ (overlay a b).names) =
      (c.names.filter fun name => name ∉ b.names).filter fun name => name ∉ a.names := by
    rw [List.filter_filter, names_overlay hb]
    refine List.filter_congr fun name _ => ?_
    by_cases ha : name ∈ a.names <;> simp [ha]
  rw [names_overlay hc, names_overlay hbc, names_overlay hc, hnew, names_overlay hb,
    List.filter_append, List.append_assoc]

/-- Three objects may be grouped freely when the values under every name may be. -/
theorem overlay_assoc_of_values (ha : (Json.obj a).WellFormed) (hb : (Json.obj b).WellFormed)
    (hc : (Json.obj c).WellFormed)
    (h : ∀ key x y z, a.get? key = some x → b.get? key = some y → c.get? key = some z →
      z.over (some (y.over (some x))) = (z.over (some y)).over (some x)) :
    overlay (overlay a b) c = overlay a (overlay b c) := by
  have hbc := (wellFormed_overlay hb hc).fields
  refine (wellFormed_overlay (wellFormed_overlay ha hb) hc).fields.eq_of_get?
    (names_overlay_assoc hb.fields hc.fields hbc) fun key => ?_
  rw [get?_overlay hc.fields, get?_overlay hb.fields, get?_overlay hbc, get?_overlay hc.fields]
  exact Json.overAt_assoc fun x hx y hy z hz => h key x y z hx hy hz

/-! ## Where the middle layer resets -/

namespace Json

variable {x y z : Json}

/-- At a key path the lower and the upper value have objects, and the middle one has a value that is
no object. -/
structure Resets (lower middle upper : Json) (path : List String) (below above : Fields Json) :
    Prop where
  lower : lower.at? path = some (.obj below)
  upper : upper.at? path = some (.obj above)
  middle : ∃ x, middle.at? path = some x ∧ x.fields? = none

/-- Between three objects, a key path of several keys is taken from the values under the first. -/
theorem resets_obj_cons_iff {below above : Fields Json} :
    Resets (obj a) (obj b) (obj c) (key :: path) below above ↔
      ∃ x y z, a.get? key = some x ∧ b.get? key = some y ∧ c.get? key = some z ∧
        Resets x y z path below above := by
  constructor
  · intro h
    obtain ⟨x, hx, hlower⟩ := Option.bind_eq_some_iff.1 h.lower
    obtain ⟨z, hz, hupper⟩ := Option.bind_eq_some_iff.1 h.upper
    obtain ⟨leaf, hmiddle, hleaf⟩ := h.middle
    obtain ⟨y, hy, hmiddle⟩ := Option.bind_eq_some_iff.1 hmiddle
    exact ⟨x, y, z, hx, hy, hz, hlower, hupper, leaf, hmiddle, hleaf⟩
  · intro h
    obtain ⟨x, y, z, hx, hy, hz, hlower, hupper, leaf, hmiddle, hleaf⟩ := h
    refine ⟨?_, ?_, leaf, ?_, hleaf⟩
    · rw [at?_obj_cons, hx, Option.bind_some, hlower]
    · rw [at?_obj_cons, hz, Option.bind_some, hupper]
    · rw [at?_obj_cons, hy, Option.bind_some, hmiddle]

/-- An object in the middle resets nothing between objects when no value under a name does. -/
theorem not_resets_obj {below above : Fields Json}
    (h : ∀ key x y z path, a.get? key = some x → b.get? key = some y → c.get? key = some z →
      ¬ Resets x y z path below above) (path : List String) :
    ¬ Resets (obj a) (obj b) (obj c) path below above := by
  intro hresets
  cases path with
  | nil =>
      obtain ⟨leaf, hmiddle, hleaf⟩ := hresets.middle
      cases (at?_nil (obj b)).symm.trans hmiddle
      cases hleaf
  | cons key path =>
      obtain ⟨x, y, z, hx, hy, hz, hbelow⟩ := resets_obj_cons_iff.1 hresets
      exact h key x y z path hx hy hz hbelow

/-- From a value that is no object no key path leads to one. -/
theorem at?_ne_obj_of_fields?_eq_none (h : x.fields? = none) (path : List String)
    (fields : Fields Json) : x.at? path ≠ some (obj fields) := by
  intro hat
  cases path with
  | nil =>
      cases (at?_nil x).symm.trans hat
      cases h
  | cons key path => cases (at?_cons_of_fields?_eq_none h key path).symm.trans hat

/-- Where the middle value resets, the upper object stands alone when it is merged last, and lies
over the lower object when it is merged first. -/
theorem overlay_eq_of_resets (hy : y.WellFormed) (hz : z.WellFormed) {below above : Fields Json}
    (h : Resets x y z path below above)
    (hassoc : z.over (some (y.over (some x))) = (z.over (some y)).over (some x)) :
    overlay below above = above := by
  obtain ⟨leaf, hmiddle, hleaf⟩ := h.middle
  have hover : (obj above).over (some leaf) = obj above := over_some_of_fields?_eq_none hleaf _
  have hmerged : (y.over (some x)).at? path = some leaf := by
    rw [at?_over hy hmiddle, over_of_fields?_eq_none hleaf]
  have hlast : (z.over (some (y.over (some x)))).at? path = some (obj above) := by
    rw [at?_over hz h.upper, Option.bind_some, hmerged, hover]
  have hupper : (z.over (some y)).at? path = some (obj above) := by
    rw [at?_over hz h.upper, Option.bind_some, hmiddle, hover]
  have hfirst : ((z.over (some y)).over (some x)).at? path = some (obj (overlay below above)) := by
    have hwellFormed : (z.over (some y)).WellFormed :=
      hz.over fun _ hw => Option.some.inj hw ▸ hy
    rw [at?_over hwellFormed hupper, Option.bind_some, h.lower, over_obj_obj]
  rw [hassoc, hfirst] at hlast
  exact obj.inj (Option.some.inj hlast)

/-- Three values may be grouped freely exactly when the lower object adds nothing wherever the
middle value resets. -/
theorem over_assoc_iff (hx : x.WellFormed) (hy : y.WellFormed) (hz : z.WellFormed) :
    z.over (some (y.over (some x))) = (z.over (some y)).over (some x) ↔
      ∀ path below above, Resets x y z path below above → overlay below above = above := by
  refine ⟨fun hassoc path below above h => overlay_eq_of_resets hy hz h hassoc, fun h => ?_⟩
  induction z using objectInduction generalizing x y with
  | leaf z hleaf =>
      rw [over_of_fields?_eq_none hleaf, over_of_fields?_eq_none hleaf,
        over_of_fields?_eq_none hleaf]
  | object c ih =>
      cases y using objectCases with
      | leaf y hleaf =>
          rw [over_of_fields?_eq_none hleaf, over_some_of_fields?_eq_none hleaf]
          cases x using objectCases with
          | leaf x hlower => rw [over_some_of_fields?_eq_none hlower]
          | object a =>
              have hreset : Resets (obj a) y (obj c) [] a c :=
                ⟨at?_nil _, at?_nil _, y, at?_nil _, hleaf⟩
              rw [over_obj_obj, h [] a c hreset]
      | object b =>
          cases x using objectCases with
          | leaf x hlower =>
              rw [over_some_of_fields?_eq_none hlower, over_some_of_fields?_eq_none hlower]
          | object a =>
              simp only [over_obj_obj]
              refine congrArg obj (overlay_assoc_of_values hx hy hz fun key x y z hx' hy' hz' => ?_)
              refine ih key z (Fields.mem_of_get? hz') (hx.of_get? hx') (hy.of_get? hy')
                (hz.of_get? hz') fun path below above hresets => ?_
              exact h (key :: path) below above
                (resets_obj_cons_iff.2 ⟨x, y, z, hx', hy', hz', hresets⟩)

/-- A number between two objects parts them only when it is merged with the lower one first. -/
example :
    let (x, y, z) := (obj [("old", null)], int 1, obj [("new", null)])
    z.over (some (y.over (some x))) = z ∧
      (z.over (some y)).over (some x) = obj [("old", null), ("new", null)] :=
  ⟨rfl, rfl⟩

end Json

/-! ## Three documents -/

/-- Three documents may be merged two at a time in either way when at no key path the first and the
third have objects while the second has a value that is no object. -/
theorem mergeDocuments_assoc (ha : (Json.obj a).WellFormed) (hb : (Json.obj b).WellFormed)
    (hc : (Json.obj c).WellFormed)
    (hfree : ∀ path below above, ¬ Json.Resets (.obj a) (.obj b) (.obj c) path below above) :
    mergeDocuments [.document (mergeDocuments [.document a, .document b]), .document c] =
      mergeDocuments [.document a, .document (mergeDocuments [.document b, .document c])] := by
  have hab := (wellFormed_overlay ha hb).fields
  have hassoc := (Json.over_assoc_iff ha hb hc).2 fun path below above hresets =>
    absurd hresets (hfree path below above)
  simp only [Json.over_obj_obj, Json.obj.injEq] at hassoc
  rw [mergeDocuments_pair ha.fields, mergeDocuments_pair hab, mergeDocuments_pair hb.fields,
    mergeDocuments_pair ha.fields]
  exact hassoc

namespace Layer

/-- A document with new keys before the old ones, null where a number is, and an object over an
object. -/
def revision : Fields Json :=
  [("k", .str "new"), ("b", .obj [("v", .int 7), ("y", .obj []), ("w", .null)]), ("a", .null),
   ("n", .obj [("j", .bool false)])]

theorem wellFormed_revision : (Json.obj revision).WellFormed := by
  simp [revision, Json.WellFormed, Json.FieldsWellFormed, Fields.WellFormed]

end Layer

open Layer in
/-- A number over an object under `a` that is replaced again by null, and an object over a number
under `n` that is extended. -/
theorem base_patched_revised :
    (Json.obj base).WellFormed ∧ (Json.obj patch).WellFormed ∧ (Json.obj revision).WellFormed ∧
      (∀ path below above,
        ¬ Json.Resets (.obj base) (.obj patch) (.obj revision) path below above) ∧
      mergeDocuments [.document (mergeDocuments [.document base, .document patch]),
          .document revision] =
        mergeDocuments [.document base,
          .document (mergeDocuments [.document patch, .document revision])] := by
  have hfree : ∀ path below above,
      ¬ Json.Resets (.obj base) (.obj patch) (.obj revision) path below above := by
    intro path below above
    refine Json.not_resets_obj (fun key x y z path hx hy hz => ?_) path
    have hkey := Fields.mem_names_of_get? hx
    simp only [base, Fields.names_cons, Fields.names_nil, List.mem_cons, List.not_mem_nil,
      or_false] at hkey
    obtain rfl | rfl | rfl := hkey
    · cases hz
      exact fun h => Json.at?_ne_obj_of_fields?_eq_none rfl _ _ h.upper
    · cases hx
      cases hy
      cases hz
      -- Of the two names of the lowest object the middle one has only the second.
      refine Json.not_resets_obj (fun key x y z path hx hy _ => ?_) path
      have hkey := Fields.mem_names_of_get? hx
      simp only [Fields.names_cons, Fields.names_nil, List.mem_cons, List.not_mem_nil,
        or_false] at hkey
      obtain rfl | rfl := hkey
      · cases hy
      · cases hx
        exact fun h => Json.at?_ne_obj_of_fields?_eq_none rfl _ _ h.lower
    · cases hx
      exact fun h => Json.at?_ne_obj_of_fields?_eq_none rfl _ _ h.lower
  exact ⟨wellFormed_base, wellFormed_patch, wellFormed_revision, hfree,
    mergeDocuments_assoc wellFormed_base wellFormed_patch wellFormed_revision hfree⟩

end DesignTokens
