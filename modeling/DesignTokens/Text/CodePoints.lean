/-!
# Tables of code points

A class of characters beyond ASCII is data: a list of closed intervals of code points. Membership
is `covers`, and each table is kept in the module of the class that it defines.
-/

namespace DesignTokens.Text

/-- Closed intervals of code points, in ascending order. -/
abbrev CodePoints := List (Nat × Nat)

/-- The character lies in one of the intervals. -/
def covers (table : CodePoints) (c : Char) : Bool :=
  table.any fun span => span.1 ≤ c.toNat && c.toNat ≤ span.2

end DesignTokens.Text
