/-!
# Issues

An issue is one violation of the document contract, found at a dotted path.
-/

namespace DesignTokens

/-- How serious an issue is. -/
inductive Severity where
  | error
  | warning
  deriving DecidableEq

/-- The word for a severity. -/
def Severity.word : Severity → String
  | .error => "error"
  | .warning => "warning"

/-- A violation of the document contract. -/
structure Issue where
  severity : Severity
  path : String
  message : String
  deriving DecidableEq

/-- The issue on one line. -/
def Issue.text (issue : Issue) : String :=
  issue.path ++ ": " ++ issue.message

end DesignTokens
