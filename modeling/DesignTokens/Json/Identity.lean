import DesignTokens.Json.Basic

/-!
# Identity of documents

`Json.identical` decides whether two documents are one and the same value, the order of fields and
the kinds of numbers included: `identical_iff`. It makes equality of documents decidable.
-/

namespace DesignTokens

namespace Json

mutual

/-- The two values are one and the same. -/
def identical : Json → Json → Bool
  | .null, y => match y with
    | .null => true
    | _ => false
  | .bool b, y => match y with
    | .bool c => b == c
    | _ => false
  | .int m, y => match y with
    | .int n => m == n
    | _ => false
  | .real u, y => match y with
    | .real v => u == v
    | _ => false
  | .str s, y => match y with
    | .str t => s == t
    | _ => false
  | .arr items, y => match y with
    | .arr others => identicalItems items others
    | _ => false
  | .obj fields, y => match y with
    | .obj others => identicalFields fields others
    | _ => false

/-- The two lists are one and the same. -/
def identicalItems : List Json → List Json → Bool
  | [], others => others.isEmpty
  | x :: rest, others => match others with
    | [] => false
    | y :: more => x.identical y && identicalItems rest more

/-- The two lists of fields are one and the same. -/
def identicalFields : List (String × Json) → List (String × Json) → Bool
  | [], others => others.isEmpty
  | (key, x) :: rest, others => match others with
    | [] => false
    | (name, y) :: more => key == name && (x.identical y && identicalFields rest more)

end

mutual

/-- Values are identical exactly when they are equal. -/
theorem identical_iff : (x y : Json) → (x.identical y = true ↔ x = y)
  | .null, y => by cases y <;> simp [identical]
  | .bool _, y => by cases y <;> simp [identical]
  | .int _, y => by cases y <;> simp [identical]
  | .real _, y => by cases y <;> simp [identical]
  | .str _, y => by cases y <;> simp [identical]
  | .arr items, y => by
    cases y with
    | arr others => simp [identical, identicalItems_iff items others]
    | _ => simp [identical]
  | .obj fields, y => by
    cases y with
    | obj others => simp [identical, identicalFields_iff fields others]
    | _ => simp [identical]

/-- Lists of values are identical exactly when they are equal. -/
theorem identicalItems_iff :
    (items others : List Json) → (identicalItems items others = true ↔ items = others)
  | [], others => by cases others <;> simp [identicalItems]
  | x :: rest, others => by
    cases others with
    | nil => simp [identicalItems]
    | cons y more => simp [identicalItems, identical_iff x y, identicalItems_iff rest more]

/-- Lists of fields are identical exactly when they are equal. -/
theorem identicalFields_iff :
    (fields others : List (String × Json)) →
      (identicalFields fields others = true ↔ fields = others)
  | [], others => by cases others <;> simp [identicalFields]
  | (key, x) :: rest, others => by
    cases others with
    | nil => simp [identicalFields]
    | cons other more =>
      obtain ⟨name, y⟩ := other
      simp [identicalFields, identical_iff x y, identicalFields_iff rest more, and_assoc]

end

instance : DecidableEq Json := fun x y =>
  decidable_of_iff (x.identical y = true) (identical_iff x y)

end Json

end DesignTokens
