import DesignTokens.Json.Basic

/-!
# Equality of documents

Two documents are the same when they differ only in the order of fields and in the notation of
equal numbers: `1`, `1.0` and `true` are the same number. A not-a-number is the same as itself.
-/

namespace DesignTokens

/-- A number compared by its mathematical value. -/
inductive Magnitude where
  | integer (n : Int)
  | real (x : Binary64)
  deriving DecidableEq

/-- The number that a floating-point word stands for in comparisons. -/
def Binary64.magnitude (x : Binary64) : Magnitude :=
  match x.toInt? with
  | some n => .integer n
  | none => .real x

namespace Json

/-- The number that a value stands for in comparisons, where truth values count as 0 and 1. -/
def magnitude? : Json → Option Magnitude
  | .bool b => some (.integer (if b then 1 else 0))
  | .int n => some (.integer n)
  | .real x => some x.magnitude
  | _ => none

mutual

/-- The two values are the same document. -/
def same : Json → Json → Bool
  | .null, y => match y with
    | .null => true
    | _ => false
  | .str s, y => match y with
    | .str t => s == t
    | _ => false
  | .arr items, y => match y with
    | .arr others => sameItems items others
    | _ => false
  | .obj fields, y => match y with
    | .obj others => fields.length == others.length && sameFields fields others
    | _ => false
  | .bool b, y => (Json.bool b).magnitude? == y.magnitude?
  | .int n, y => (Json.int n).magnitude? == y.magnitude?
  | .real x, y => (Json.real x).magnitude? == y.magnitude?

/-- The lists are the same, item by item. -/
def sameItems : List Json → List Json → Bool
  | [], others => others.isEmpty
  | x :: rest, others => match others with
    | [] => false
    | y :: more => x.same y && sameItems rest more

/-- Every field has the same value as the field of that name among the others. -/
def sameFields : List (String × Json) → Fields Json → Bool
  | [], _ => true
  | (key, x) :: rest, others =>
    (match others.get? key with
      | some y => x.same y
      | none => false) && sameFields rest others

end

end Json

end DesignTokens
