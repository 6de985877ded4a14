import DesignTokens.Calendar
import DesignTokens.Error.Diagnosis
import DesignTokens.Files.Fault
import DesignTokens.Json.Fault
import DesignTokens.Json.Identity
import DesignTokens.Validation.Issue

/-!
# Errors

An error is a cause. Its diagnosis says it in words, and `Error.text` is what the program shows.
-/

namespace DesignTokens

/-- Why a document in a file cannot be used. -/
inductive DocumentFault where
  | access (fault : FileFault)
  | encoding (fault : EncodingFault)
  | malformed (fault : TextFault)
  | notAnObject
  deriving DecidableEq

namespace DocumentFault

/-- The words for a document whose top level is not an object. -/
def notAnObjectWords : String :=
  "top level must be a JSON object"

/-- The fault as the cause of an unusable manifest. -/
def manifestCause : DocumentFault → String
  | .access fault => fault.named
  | .encoding fault => "UnicodeDecodeError: " ++ fault.message
  | .malformed fault => "JSONDecodeError: " ++ fault.message
  | .notAnObject => notAnObjectWords

/-- The fault as the cause of an unusable token document. -/
def tokenCause : DocumentFault → String
  | .access fault => fault.named
  | .encoding fault => "not valid UTF-8: " ++ fault.message
  | .malformed fault => "invalid JSON: " ++ fault.message
  | .notAnObject => notAnObjectWords

end DocumentFault

/-- Why an operation fails. -/
inductive Error where
  /-- A document of this kind of value stands where an object is wanted. -/
  | notADocument (kind : String)
  | duplicatePath (path : String)
  | duplicateName (category name first second : String)
  | scopeMismatch (reference expected actual : String)
  | invalidStructure (issues : List Issue)
  | invalidVersion (version : String)
  | versionMismatch (npm nuget : Option String)
  | manifest (path : String) (fault : DocumentFault)
  | tokenFile (path : String) (fault : DocumentFault)
  | outputFile (path : String) (fault : FileFault)
  | file (fault : FileFault)
  | calendar (fault : CalendarFault)
  | missingKey (key : Json)
  /-- A value of this kind stands where a path is wanted. -/
  | notAPath (kind : String)
  deriving DecidableEq

namespace Error

/-- The error of a fault of files, which is reported as given unless no request could be made. -/
def ofFile (report : FileFault → Error) : FileFault → Error
  | .nullInPath => .file .nullInPath
  | fault => report fault

/-- The error of a fault of a document, which is reported as given unless no request for it could
be made. -/
def ofDocument (report : DocumentFault → Error) : DocumentFault → Error
  | .access .nullInPath => .file .nullInPath
  | fault => report fault

/-- A version in a diagnosis: null when there is none. -/
def versionValue (version : Option String) : Json :=
  version.elim .null .str

/-- What an error says. -/
def diagnosis : Error → Diagnosis
  | .notADocument kind =>
    .invalidDocument (.str ("expected a JSON object, got " ++ kind)) .null
  | .duplicatePath path => .duplicatePath (.str path)
  | .duplicateName category name first second =>
    .duplicateName (.str category) (.str name) (.str first) (.str second)
  | .scopeMismatch reference expected actual =>
    .scopeMismatch (.str reference) (.str expected) (.str actual)
  | .invalidStructure issues => .invalidStructure (issues.map Issue.text)
  | .invalidVersion version => .invalidVersion (.str version)
  | .versionMismatch npm nuget => .versionMismatch (versionValue npm) (versionValue nuget)
  | .manifest path fault => .manifest (.str path) (.str fault.manifestCause)
  | .tokenFile path fault => .tokenFile (.str path) (.str fault.tokenCause)
  | .outputFile path fault => .outputFile (.str path) (.str fault.named)
  | .file fault => .ofText fault.message
  | .calendar fault => .ofText fault.message
  | .missingKey key => .ofText key.literal
  | .notAPath kind => .ofText ("expected str, bytes or os.PathLike object, not " ++ kind)

/-- What the program shows of an error. -/
def text (e : Error) : String :=
  e.diagnosis.text

/-- The error is one that a program reports. Any other error breaks it off. -/
def isReported : Error → Bool
  | .file .nullInPath | .calendar _ | .missingKey _ | .notAPath _ => false
  | _ => true

end Error

end DesignTokens
