/-!
# Ordered fields

`Fields α` is a finite map from names to values that remembers the order in which its names were
first given. Reading a name gives its first value, and inserting under a present name keeps its
place. `Fields.WellFormed` says that no name occurs twice, which every operation here keeps.
-/

namespace DesignTokens

/-- Named values in order. -/
abbrev Fields (α : Type) := List (String × α)

namespace Fields

variable {α : Type}

/-- No name occurs twice. -/
def WellFormed (fields : Fields α) : Prop :=
  (fields.map Prod.fst).Nodup

/-- The names in order. -/
def names (fields : Fields α) : List String :=
  fields.map Prod.fst

/-- The value under a name. -/
def get? : Fields α → String → Option α
  | [], _ => none
  | (key, value) :: rest, name => if key = name then some value else get? rest name

/-- The name occurs. -/
def has (fields : Fields α) (name : String) : Bool :=
  (fields.get? name).isSome

/-- The fields with a value put under a name: in its place when the name is present, else last. -/
def insert : Fields α → String → α → Fields α
  | [], name, value => [(name, value)]
  | (key, old) :: rest, name, value =>
    if key = name then (key, value) :: rest else (key, old) :: insert rest name value

/-- The fields with all of `others` inserted in order. -/
def insertAll (fields others : Fields α) : Fields α :=
  others.foldl (fun acc field => acc.insert field.1 field.2) fields

/-- The fields that a list of pairs denotes: the first occurrence of a name gives its place and the
last one its value. -/
def ofPairs (pairs : List (String × α)) : Fields α :=
  insertAll [] pairs

/-- The fields whose name is none of `names`. -/
def without (fields : Fields α) (names : List String) : Fields α :=
  fields.filter fun field => !names.contains field.1

end Fields

end DesignTokens
