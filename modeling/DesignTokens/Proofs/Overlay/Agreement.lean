import DesignTokens.Proofs.Json.Sameness
import DesignTokens.Proofs.Overlay.Associativity
import DesignTokens.Proofs.Tree.Writing

/-!
# Layers that agree

Where two documents both have something, they agree when both have objects or both have the same.
Such layers, and no others, may be merged in either order when the order of keys does not matter:
`mergeDocuments_comm_iff`. A document agrees with itself, and merging it again does not even move a
key: `mergeDocuments_repeated`.
-/

namespace DesignTokens

variable {a b : Fields Json} {key : String}

/-! ## The names of merged objects -/

theorem mem_names_overlay (hb : b.WellFormed) :
    key ∈ (overlay a b).names ↔ key ∈ a.names ∨ key ∈ b.names := by
  rw [names_overlay hb, List.mem_append, List.mem_filter, decide_eq_true_eq]
  by_cases ha : key ∈ a.names
  · simp [ha]
  · simp [ha]

/-- Objects that are merged in either order have the same names, in some order. -/
theorem names_overlay_comm (ha : (Json.obj a).WellFormed) (hb : (Json.obj b).WellFormed) :
    (overlay b a).names.Perm (overlay a b).names := by
  have hab := (wellFormed_overlay ha hb).fields
  have hba := (wellFormed_overlay hb ha).fields
  refine (List.perm_ext_iff_of_nodup hba hab).2 fun name => ?_
  show name ∈ (overlay b a).names ↔ name ∈ (overlay a b).names
  rw [mem_names_overlay ha.fields, mem_names_overlay hb.fields, or_comm]

namespace Json

variable {R : Json → Json → Prop} {x y : Json}

/-! ## Relations that do not see the order of fields -/

/-- The relation compares documents up to the order of fields: objects are related when they have
the same names, in any order, and under each name related values. -/
structure Unordered (R : Json → Json → Prop) : Prop where
  refl : ∀ x : Json, x.WellFormed → R x x
  object : ∀ fields y, R (.obj fields) y → ∃ others, y = .obj others
  objects : ∀ fields others : Fields Json, fields.WellFormed →
    (R (.obj fields) (.obj others) ↔ fields.names.Perm others.names ∧
      ∀ name x y, fields.get? name = some x → others.get? name = some y → R x y)

theorem unordered_rearranged : Unordered Rearranged where
  refl x _ := .refl x
  object _ _ h := h.exists_fields
  objects _ _ _ := rearranged_obj_iff

theorem unordered_same : Unordered fun x y => x.same y = true where
  refl := same_self
  object _ _ := fields?_of_same_obj
  objects _ _ := same_obj_iff

/-! ## Agreement -/

/-- Wherever a key path leads to something in both values, it leads to two objects or to values that
are related. -/
def Agree (R : Json → Json → Prop) (x y : Json) : Prop :=
  ∀ path u v, x.at? path = some u → y.at? path = some v →
    (u.isObject = true ∧ v.isObject = true) ∨ R u v

/-- A value that is no object agrees with what it is related to. -/
theorem agree_iff_of_leaf (h : x.fields? = none ∨ y.fields? = none) : Agree R x y ↔ R x y := by
  constructor
  · intro hagree
    rcases hagree [] x y (at?_nil x) (at?_nil y) with hobjects | hrelated
    · rcases h with hx | hy
      · simp [isObject, hx] at hobjects
      · simp [isObject, hy] at hobjects
    · exact hrelated
  · intro hrelated path u v hu hv
    cases path with
    | nil =>
        cases (at?_nil x).symm.trans hu
        cases (at?_nil y).symm.trans hv
        exact Or.inr hrelated
    | cons key path =>
        -- Below a value that is no object nothing is left to agree on.
        rcases h with hx | hy
        · cases (at?_cons_of_fields?_eq_none hx key path).symm.trans hu
        · cases (at?_cons_of_fields?_eq_none hy key path).symm.trans hv

/-- Objects agree when the values under every common name do. -/
theorem agree_obj_iff :
    Agree R (obj a) (obj b) ↔
      ∀ key u v, a.get? key = some u → b.get? key = some v → Agree R u v := by
  constructor
  · intro h key u v hu hv path u' v' hu' hv'
    refine h (key :: path) u' v' ?_ ?_
    · rw [at?_obj_cons, hu, Option.bind_some, hu']
    · rw [at?_obj_cons, hv, Option.bind_some, hv']
  · intro h path u v hu hv
    cases path with
    | nil =>
        cases hu
        cases hv
        exact Or.inl ⟨rfl, rfl⟩
    | cons key path =>
        obtain ⟨u', hu', hu⟩ := Option.bind_eq_some_iff.1 hu
        obtain ⟨v', hv', hv⟩ := Option.bind_eq_some_iff.1 hv
        exact h key u' v' hu' hv' path u v hu hv

/-- To agree up to the order of fields is to agree exactly, since fields are met one by one. -/
theorem agree_rearranged_iff : Agree Rearranged x y ↔ Agree Eq x y := by
  refine forall_congr' fun path => forall_congr' fun u => forall_congr' fun v => ?_
  refine forall_congr' fun _ => forall_congr' fun _ => ?_
  constructor
  · rintro (hobjects | hrelated)
    · exact Or.inl hobjects
    · cases hrelated with
      | refl => exact Or.inr rfl
      | obj => exact Or.inl ⟨rfl, rfl⟩
  · rintro (hobjects | rfl)
    · exact Or.inl hobjects
    · exact Or.inr (.refl u)

/-! ## Merging in either order -/

/-- What stands under one name after merging in either order is related when it is wherever both
sides have a value. -/
theorem overAt_comm_iff (hR : Unordered R) {p q : Option Json} (hp : ∀ u ∈ p, u.WellFormed)
    (hq : ∀ v ∈ q, v.WellFormed) :
    (∀ u v, overAt q p = some u → overAt p q = some v → R u v) ↔
      ∀ u v, p = some u → q = some v → R (u.over (some v)) (v.over (some u)) := by
  cases p with
  | none =>
      refine iff_of_true (fun u v hu hv => ?_) (fun u v hu => nomatch hu)
      cases q with
      | none => cases hu
      | some w =>
          cases hu
          cases hv
          rw [over_none]
          exact hR.refl _ (hq _ rfl)
  | some w =>
      cases q with
      | none =>
          refine iff_of_true (fun u v hu hv => ?_) (fun u v _ hv => nomatch hv)
          cases hu
          cases hv
          rw [over_none]
          exact hR.refl _ (hp _ rfl)
      | some z => simp [overAt]

/-- Laid over each other in either order, values are related exactly when they agree. -/
theorem over_comm_iff (hR : Unordered R) (hx : x.WellFormed) (hy : y.WellFormed) :
    R (x.over (some y)) (y.over (some x)) ↔ Agree R x y := by
  induction x using objectInduction generalizing y with
  | leaf x hleaf =>
      rw [over_of_fields?_eq_none hleaf, over_some_of_fields?_eq_none hleaf,
        agree_iff_of_leaf (Or.inl hleaf)]
  | object a ih =>
      cases y using objectCases with
      | leaf y hleaf =>
          rw [over_of_fields?_eq_none hleaf, over_some_of_fields?_eq_none hleaf,
            agree_iff_of_leaf (Or.inr hleaf)]
      | object b =>
          rw [over_obj_obj, over_obj_obj, hR.objects _ _ (wellFormed_overlay hy hx).fields,
            and_iff_right (names_overlay_comm hx hy), agree_obj_iff]
          refine forall_congr' fun key => ?_
          rw [get?_overlay hx.fields, get?_overlay hy.fields,
            overAt_comm_iff hR (fun u hu => hx.of_get? hu) fun v hv => hy.of_get? hv]
          refine forall_congr' fun u => forall_congr' fun v => forall_congr' fun hu =>
            forall_congr' fun hv => ?_
          exact ih key u (Fields.mem_of_get? hu) (hx.of_get? hu) (hy.of_get? hv)

/-! ## Merging again -/

/-- A value laid over itself is itself, the order of fields included. -/
theorem over_self (hx : x.WellFormed) : x.over (some x) = x := by
  induction x using objectInduction with
  | leaf x hleaf => rw [over_of_fields?_eq_none hleaf]
  | object a ih =>
      rw [over_obj_obj]
      have hnames : (overlay a a).names = Fields.names a := by
        rw [names_overlay hx.fields, List.append_right_eq_self, List.filter_eq_nil_iff]
        intro name hname
        simpa using hname
      refine congrArg obj ((wellFormed_overlay hx hx).fields.eq_of_get? hnames fun key => ?_)
      rw [get?_overlay hx.fields]
      cases hkey : Fields.get? a key with
      | none => rfl
      | some y => exact congrArg some (ih key y (Fields.mem_of_get? hkey) (hx.of_get? hkey))

/-- A value that lies on top already may be laid over the result again. -/
theorem over_over_self (hx : x.WellFormed) (hy : y.WellFormed) :
    y.over (some (y.over (some x))) = y.over (some x) := by
  -- Grouped the other way, the value is laid over itself first.
  have hassoc : y.over (some (y.over (some x))) = (y.over (some y)).over (some x) := by
    refine (over_assoc_iff hx hy hy).2 fun path below above hresets => ?_
    obtain ⟨leaf, hmiddle, hleaf⟩ := hresets.middle
    cases hresets.upper.symm.trans hmiddle
    cases hleaf
  rw [hassoc, over_self hy]

end Json

/-! ## Two documents -/

/-- Two merged documents differ at most in the order of keys from the same two merged the other way
round exactly when they agree: wherever both have something, both have objects or both have the same
value. The two results are the same document, numbers in different notations included, exactly when
the documents agree in this sense. -/
theorem mergeDocuments_comm_iff (ha : (Json.obj a).WellFormed) (hb : (Json.obj b).WellFormed) :
    let merged := Json.obj (mergeDocuments [.document a, .document b])
    let reversed := Json.obj (mergeDocuments [.document b, .document a])
    (reversed.Rearranged merged ↔
        ∀ path x y, (Json.obj a).at? path = some x → (Json.obj b).at? path = some y →
          (x.isObject = true ∧ y.isObject = true) ∨ x = y) ∧
      (reversed.same merged = true ↔
        ∀ path x y, (Json.obj a).at? path = some x → (Json.obj b).at? path = some y →
          (x.isObject = true ∧ y.isObject = true) ∨ x.same y = true) := by
  intro merged reversed
  have hmerged : merged = (Json.obj b).over (some (.obj a)) := by
    rw [Json.over_obj_obj]
    exact congrArg Json.obj (mergeDocuments_pair ha.fields)
  have hreversed : reversed = (Json.obj a).over (some (.obj b)) := by
    rw [Json.over_obj_obj]
    exact congrArg Json.obj (mergeDocuments_pair hb.fields)
  rw [hmerged, hreversed]
  constructor
  · exact (Json.over_comm_iff Json.unordered_rearranged ha hb).trans Json.agree_rearranged_iff
  · exact Json.over_comm_iff Json.unordered_same ha hb

namespace Layer

/-- A document that agrees with the base: the same number, and more keys in one of its objects. -/
def extension : Fields Json :=
  [("n", .int 3), ("b", .obj [("w", .int 4), ("z", .null)]), ("m", .str "new")]

theorem wellFormed_extension : (Json.obj extension).WellFormed := by
  simp [extension, Json.WellFormed, Json.FieldsWellFormed, Fields.WellFormed]

/-- Of the names in both documents one has equal numbers, and the other objects whose only common
name has null in both. -/
theorem agree_extension : Json.Agree Eq (.obj base) (.obj extension) := by
  refine Json.agree_obj_iff.2 fun key u v hu hv => ?_
  have hkey := Fields.mem_names_of_get? hv
  simp only [extension, Fields.names_cons, Fields.names_nil, List.mem_cons, List.not_mem_nil,
    or_false] at hkey
  obtain rfl | rfl | rfl := hkey
  · cases hu
    cases hv
    exact (Json.agree_iff_of_leaf (Or.inl rfl)).2 rfl
  · cases hu
    cases hv
    refine Json.agree_obj_iff.2 fun key u v hu hv => ?_
    have hkey := Fields.mem_names_of_get? hv
    simp only [Fields.names_cons, Fields.names_nil, List.mem_cons, List.not_mem_nil, or_false]
      at hkey
    obtain rfl | rfl := hkey
    · cases hu
    · cases hu
      cases hv
      exact (Json.agree_iff_of_leaf (Or.inl rfl)).2 rfl
  · cases hu

end Layer

open Layer in
/-- The base and its extension may be merged in either order, which only moves keys. -/
theorem base_extended_either_way :
    (Json.obj base).WellFormed ∧ (Json.obj extension).WellFormed ∧
      Json.Agree Eq (.obj base) (.obj extension) ∧
      (Json.obj (mergeDocuments [.document extension, .document base])).Rearranged
        (.obj (mergeDocuments [.document base, .document extension])) ∧
      mergeDocuments [.document extension, .document base] ≠
        mergeDocuments [.document base, .document extension] := by
  obtain ⟨hrearranged, -⟩ := mergeDocuments_comm_iff wellFormed_base wellFormed_extension
  exact ⟨wellFormed_base, wellFormed_extension, agree_extension,
    hrearranged.2 agree_extension, by decide⟩

/-- Merging a document a second time changes nothing, merging it with itself gives it back, and so
does merging it with an empty document on either side. The order of keys is kept in all of these. -/
theorem mergeDocuments_repeated (ha : (Json.obj a).WellFormed) (hb : (Json.obj b).WellFormed) :
    mergeDocuments [.document a, .document b, .document b] =
        mergeDocuments [.document a, .document b] ∧
      mergeDocuments [.document a, .document a] = a ∧
      mergeDocuments [.document a, .document []] = a ∧
      mergeDocuments [.document [], .document a] = a := by
  have hself : overlay a a = a := by
    have h := Json.over_self ha
    rwa [Json.over_obj_obj, Json.obj.injEq] at h
  have hagain : overlay (overlay a b) b = overlay a b := by
    have h := Json.over_over_self ha hb
    rwa [Json.over_obj_obj, Json.over_obj_obj, Json.obj.injEq] at h
  refine ⟨?_, ?_, ?_, ?_⟩
  · rw [mergeDocuments_pair ha.fields]
    show overlay (overlay (overlay [] a) b) b = overlay a b
    rw [overlay_nil ha.fields, hagain]
  · rw [mergeDocuments_pair ha.fields, hself]
  · rw [mergeDocuments_pair ha.fields, overlay]
  · show overlay (overlay [] []) a = a
    rw [overlay, overlay_nil ha.fields]

open Layer in
/-- A patch that replaces an object by a number and a number by an object is applied twice. -/
theorem base_patched_twice :
    (Json.obj base).WellFormed ∧ (Json.obj patch).WellFormed ∧
      mergeDocuments [.document base, .document patch, .document patch] =
        mergeDocuments [.document base, .document patch] ∧
      mergeDocuments [.document base, .document base] = base ∧
      mergeDocuments [.document base, .document []] = base ∧
      mergeDocuments [.document [], .document base] = base :=
  ⟨wellFormed_base, wellFormed_patch, mergeDocuments_repeated wellFormed_base wellFormed_patch⟩

end DesignTokens
