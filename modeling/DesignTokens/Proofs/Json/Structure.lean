import DesignTokens.Json.Basic
import DesignTokens.Proofs.Fields

/-!
# The structure of documents

Documents are taken apart along objects only: `objectInduction` treats any other value as a leaf,
and `at?_cons` says that a key path steps from an object to a field. Well-formed documents have
well-formed values under all their names. `leaves` lists what is no object at the ends of key paths.
-/

namespace DesignTokens

namespace Json

/-- What holds of every value that is no object, and of an object when it holds of the values of
its fields, holds of every document. -/
theorem objectInduction {P : Json → Prop} (leaf : ∀ x, x.fields? = none → P x)
    (object : ∀ fields, (∀ key x, (key, x) ∈ fields → P x) → P (.obj fields)) : ∀ x, P x
  | .obj fields => object fields fun _ x _ => objectInduction leaf object x
  | .null | .bool _ | .int _ | .real _ | .str _ | .arr _ => leaf _ rfl
decreasing_by
  rename_i key hmem
  have hfield := List.sizeOf_lt_of_mem hmem
  simp only [Prod.mk.sizeOf_spec, Json.obj.sizeOf_spec] at hfield ⊢
  omega

/-- What holds of every value that is no object and of every object holds of every document. -/
theorem objectCases {P : Json → Prop} (leaf : ∀ x, x.fields? = none → P x)
    (object : ∀ fields : Fields Json, P (.obj fields)) (x : Json) : P x :=
  objectInduction leaf (fun fields _ => object fields) x

/-- A value has fields exactly when it is the object of these fields. -/
theorem fields?_eq_some_iff {x : Json} {fields : Fields Json} :
    x.fields? = some fields ↔ x = .obj fields := by
  cases x <;> simp [fields?]

/-- A value has a text exactly when it is this text. -/
theorem str?_eq_some_iff {x : Json} {text : String} : x.str? = some text ↔ x = .str text := by
  cases x <;> simp [str?]

/-- A value that may be missing has fields exactly when it is there and is the object of these
fields. -/
theorem bind_fields?_eq_some_iff {x : Option Json} {fields : Fields Json} :
    x.bind fields? = some fields ↔ x = some (.obj fields) := by
  rw [Option.bind_eq_some_iff]
  simp only [fields?_eq_some_iff]
  simp

/-! ## Key paths -/

@[simp] theorem at?_nil (x : Json) : x.at? [] = some x := by
  cases x <;> rfl

theorem at?_cons (x : Json) (key : String) (path : List String) :
    x.at? (key :: path) = (x.field? key).bind fun child => child.at? path := by
  cases x <;> rfl

@[simp] theorem at?_obj_cons (fields : Fields Json) (key : String) (path : List String) :
    (obj fields).at? (key :: path) = (fields.get? key).bind fun child => child.at? path := rfl

/-- A key path leads nowhere from a value that is no object. -/
theorem at?_cons_of_fields?_eq_none {x : Json} (h : x.fields? = none) (key : String)
    (path : List String) : x.at? (key :: path) = none := by
  cases x <;> first | rfl | cases h

/-- A path with a second part leads to where the second part leads from where the first one
leads. -/
theorem at?_append (x : Json) (path below : List String) :
    x.at? (path ++ below) = (x.at? path).bind fun y => y.at? below := by
  induction path generalizing x with
  | nil => simp
  | cons key path ih =>
      cases x using objectCases with
      | leaf x hx => simp [at?_cons_of_fields?_eq_none hx]
      | object fields =>
          cases hchild : fields.get? key with
          | none => simp [hchild]
          | some child => simp [hchild, ih]

/-- Whatever has something below it is an object. -/
theorem fields?_of_at?_cons {x y : Json} {key : String} {path : List String}
    (h : x.at? (key :: path) = some y) : ∃ fields, x = .obj fields := by
  cases x using objectCases with
  | leaf x hx => simp [at?_cons_of_fields?_eq_none hx] at h
  | object fields => exact ⟨fields, rfl⟩

/-- The object to which a key path of several keys leads is looked up step by step. -/
theorem bind_fields?_at?_cons (fields : Fields Json) (key next : String) (path : List String) :
    ((obj fields).at? (key :: next :: path)).bind fields? =
      ((fields.get? key).bind fields?).bind fun inner =>
        ((obj inner).at? (next :: path)).bind fields? := by
  rw [at?_obj_cons]
  cases fields.get? key with
  | none => rfl
  | some child =>
      cases child using objectCases with
      | leaf x hx => rw [Option.bind_some, Option.bind_some, at?_cons_of_fields?_eq_none hx, hx]; rfl
      | object inner => rfl

/-- The object to which a single key leads is the value of its field. -/
theorem bind_fields?_at?_singleton (fields : Fields Json) (key : String) :
    ((obj fields).at? [key]).bind fields? = (fields.get? key).bind fields? := by
  rw [at?_obj_cons]
  cases fields.get? key with
  | none => rfl
  | some child => rw [Option.bind_some, at?_nil, Option.bind_some]

/-- Every value strictly above another one is an object. -/
theorem fields?_of_at?_above {x y : Json} {above path : List String} (h : x.at? path = some y)
    (habove : above <+: path) (hne : above ≠ path) :
    ∃ fields, x.at? above = some (.obj fields) := by
  obtain ⟨below, rfl⟩ := habove
  rw [at?_append, Option.bind_eq_some_iff] at h
  obtain ⟨z, hz, hbelow⟩ := h
  cases below with
  | nil => simp at hne
  | cons key below =>
      obtain ⟨fields, rfl⟩ := fields?_of_at?_cons hbelow
      exact ⟨fields, hz⟩

/-! ## Well-formed documents -/

theorem fieldsWellFormed_iff {fields : Fields Json} :
    FieldsWellFormed fields ↔ ∀ key x, (key, x) ∈ fields → x.WellFormed := by
  induction fields with
  | nil => simp [FieldsWellFormed]
  | cons field rest ih =>
      obtain ⟨key, x⟩ := field
      simp only [FieldsWellFormed, ih, List.mem_cons, Prod.mk.injEq]
      constructor
      · rintro ⟨hx, hrest⟩ name y (⟨rfl, rfl⟩ | hmem)
        · exact hx
        · exact hrest name y hmem
      · exact fun h => ⟨h key x (Or.inl ⟨rfl, rfl⟩), fun name y hmem => h name y (Or.inr hmem)⟩

/-- An object is well formed when it repeats no name and its values are well formed. -/
theorem wellFormed_obj_iff {fields : Fields Json} :
    (obj fields).WellFormed ↔ fields.WellFormed ∧ ∀ key x, (key, x) ∈ fields → x.WellFormed := by
  rw [← fieldsWellFormed_iff]
  rfl

/-- The names of a well-formed object are distinct. -/
theorem WellFormed.fields {fields : Fields Json} (h : (obj fields).WellFormed) :
    fields.WellFormed :=
  (wellFormed_obj_iff.1 h).1

/-- A value of a well-formed object is well formed. -/
theorem WellFormed.of_get? {fields : Fields Json} {key : String} {x : Json}
    (h : (obj fields).WellFormed) (hget : fields.get? key = some x) : x.WellFormed :=
  (wellFormed_obj_iff.1 h).2 key x (Fields.mem_of_get? hget)

/-- Where a key path leads in a well-formed document, the value is well formed. -/
theorem WellFormed.of_at? {x y : Json} {path : List String} (hx : x.WellFormed)
    (h : x.at? path = some y) : y.WellFormed := by
  induction path generalizing x with
  | nil =>
      cases (at?_nil x).symm.trans h
      exact hx
  | cons key path ih =>
      obtain ⟨fields, rfl⟩ := fields?_of_at?_cons h
      obtain ⟨child, hchild, hrest⟩ := Option.bind_eq_some_iff.1 h
      exact ih (hx.of_get? hchild) hrest

/-! ## Leaves -/

mutual

/-- The values in a document that are no objects, at whatever depth of objects. -/
def leaves : Json → List Json
  | .obj fields => fieldLeaves fields
  | .null => [.null]
  | .bool b => [.bool b]
  | .int n => [.int n]
  | .real x => [.real x]
  | .str s => [.str s]
  | .arr items => [.arr items]

/-- The values in fields that are no objects, at whatever depth of objects. -/
def fieldLeaves : List (String × Json) → List Json
  | [] => []
  | (_, x) :: rest => x.leaves ++ fieldLeaves rest

end

theorem mem_fieldLeaves_iff {fields : Fields Json} {x : Json} :
    x ∈ fieldLeaves fields ↔ ∃ field ∈ fields, x ∈ field.2.leaves := by
  induction fields with
  | nil => simp [fieldLeaves]
  | cons field rest ih => simp [fieldLeaves, ih]

theorem fieldLeaves_append (fields others : Fields Json) :
    fieldLeaves (fields ++ others) = fieldLeaves fields ++ fieldLeaves others := by
  induction fields with
  | nil => rfl
  | cons field rest ih =>
      rw [List.cons_append, fieldLeaves, ih, fieldLeaves, List.append_assoc]

end Json

end DesignTokens
