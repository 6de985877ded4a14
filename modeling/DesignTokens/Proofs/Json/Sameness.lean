import DesignTokens.Json.Equality
import DesignTokens.Proofs.Json.Structure

/-!
# Documents that are the same

What sameness asks of objects: the same names in some order, and under each name values that are the
same (`same_obj_iff`). Every well-formed document is the same as itself (`same_self`), which fails
where a name is repeated, since only its first value is found.
-/

namespace DesignTokens

namespace Json

mutual

/-- A well-formed value is the same as itself. -/
theorem same_self : (x : Json) → x.WellFormed → x.same x = true
  | .null, _ => rfl
  | .bool _, _ | .int _, _ | .real _, _ | .str _, _ => by simp [same]
  | .arr items, h => by
    rw [same]
    exact sameItems_self items h
  | .obj fields, h => by
    rw [same, beq_self_eq_true, Bool.true_and]
    refine sameFields_self fields fields (fieldsWellFormed_iff.2 (wellFormed_obj_iff.1 h).2) ?_
    exact fun key x hmem => h.fields.get?_eq_some_iff.2 hmem

/-- Well-formed values are the same as themselves, one by one. -/
theorem sameItems_self : (items : List Json) → AllWellFormed items → sameItems items items = true
  | [], _ => rfl
  | x :: rest, h => by
    rw [sameItems, same_self x h.1, sameItems_self rest h.2]
    rfl

/-- Well-formed values that are found under their names are the same as what is found. -/
theorem sameFields_self : (fields : List (String × Json)) → (others : Fields Json) →
    FieldsWellFormed fields → (∀ key x, (key, x) ∈ fields → others.get? key = some x) →
    sameFields fields others = true
  | [], _, _, _ => rfl
  | (key, x) :: rest, others, h, hfound => by
    have hrest : ∀ name y, (name, y) ∈ rest → others.get? name = some y :=
      fun name y hmem => hfound name y (List.mem_cons_of_mem _ hmem)
    rw [sameFields, hfound key x List.mem_cons_self]
    show (x.same x && sameFields rest others) = true
    rw [same_self x h.1, sameFields_self rest others h.2 hrest]
    rfl

end

theorem sameFields_cons_iff {name : String} {first : Json} {rest others : Fields Json} :
    sameFields ((name, first) :: rest) others = true ↔
      (∃ y, others.get? name = some y ∧ first.same y = true) ∧ sameFields rest others = true := by
  rw [sameFields, Bool.and_eq_true]
  refine and_congr_left' ?_
  cases others.get? name <;> simp

theorem sameFields_iff {fields others : Fields Json} :
    sameFields fields others = true ↔
      ∀ key x, (key, x) ∈ fields → ∃ y, others.get? key = some y ∧ x.same y = true := by
  induction fields with
  | nil => simp [sameFields]
  | cons field rest ih =>
      obtain ⟨name, first⟩ := field
      rw [sameFields_cons_iff, ih]
      simp only [List.mem_cons, Prod.mk.injEq]
      constructor
      · rintro ⟨hname, hrest⟩ key x (⟨rfl, rfl⟩ | hmem)
        · exact hname
        · exact hrest key x hmem
      · intro hall
        exact ⟨hall name first (Or.inl ⟨rfl, rfl⟩), fun key x hmem => hall key x (Or.inr hmem)⟩

/-- Only an object is the same as an object. -/
theorem fields?_of_same_obj {fields : Fields Json} {y : Json} (h : (obj fields).same y = true) :
    ∃ others, y = .obj others := by
  cases y with
  | obj others => exact ⟨others, rfl⟩
  | _ => cases h

/-- Objects are the same exactly when they have the same names, in some order, and under each name
values that are the same. -/
theorem same_obj_iff {fields others : Fields Json} (hfields : fields.WellFormed) :
    (obj fields).same (.obj others) = true ↔
      fields.names.Perm others.names ∧
        ∀ name x y, fields.get? name = some x → others.get? name = some y → x.same y = true := by
  rw [same, Bool.and_eq_true, beq_iff_eq, sameFields_iff]
  constructor
  · intro hsame
    obtain ⟨hlength, hfound⟩ := hsame
    refine ⟨hfields.names_perm_of_subset hlength fun name hname => ?_, fun name x y hx hy => ?_⟩
    · obtain ⟨x, hx⟩ := Fields.exists_get?_of_mem_names hname
      obtain ⟨y, hy, -⟩ := hfound name x (Fields.mem_of_get? hx)
      exact Fields.mem_names_of_get? hy
    · obtain ⟨z, hz, hxz⟩ := hfound name x (Fields.mem_of_get? hx)
      rw [hy] at hz
      exact Option.some.inj hz ▸ hxz
  · intro hboth
    obtain ⟨hnames, hvalues⟩ := hboth
    refine ⟨?_, fun key x hmem => ?_⟩
    · have hlength := hnames.length_eq
      rwa [Fields.names, Fields.names, List.length_map, List.length_map] at hlength
    · have hx := hfields.get?_eq_some_iff.2 hmem
      obtain ⟨y, hy⟩ := Fields.exists_get?_of_mem_names
        (hnames.mem_iff.1 (Fields.mem_names_of_get? hx))
      exact ⟨y, hy, hvalues key x y hx hy⟩

end Json

end DesignTokens
