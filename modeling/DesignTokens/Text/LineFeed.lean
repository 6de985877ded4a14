/-!
# Final line feeds

A text that is checked as a whole may end in one line feed that is not looked at.
-/

namespace DesignTokens.Text

/-- The characters without one line feed at the end. -/
def dropFinalLineFeed (cs : List Char) : List Char :=
  if cs.getLast? = some '\n' then cs.dropLast else cs

end DesignTokens.Text
