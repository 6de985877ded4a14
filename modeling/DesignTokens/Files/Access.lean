import DesignTokens.Files.Path
import DesignTokens.Files.Text
import DesignTokens.Json.Reader
import DesignTokens.Outcome

/-!
# Access to files

`Files m` is what the program asks of a file system in a monad `m`. On top of it stand the reading
of documents and the writing of outputs.
-/

namespace DesignTokens

/-- The requests on a file system. -/
structure Files (m : Type → Type) where
  /-- The octets of a file. -/
  read : Path → m (Except FileFault ByteArray)
  /-- The path is a folder. -/
  isFolder : Path → m Bool
  /-- Make one folder. -/
  makeFolder : Path → m (Except FileFault Unit)
  /-- Make a text the whole content of a file, which is created when it is missing. -/
  write : Path → String → m (Except FileFault Unit)

namespace Files

variable {m : Type → Type} [Monad m]

/-- Make a folder, where a folder that is there already will do. -/
def ensureFolder (files : Files m) (path : Path) : m (Except FileFault Unit) := do
  match ← files.makeFolder path with
  | .ok () => return .ok ()
  | .error fault =>
    if fault.isMissing then return .error fault
    else if ← files.isFolder path then return .ok ()
    else return .error fault

/-- Make the folder of the given parts, which come last part first, and the folders above it. -/
def ensureParts (files : Files m) (anchor : String) : List String → m (Except FileFault Unit)
  | [] => files.ensureFolder ⟨anchor, []⟩
  | part :: above => do
    let path : Path := ⟨anchor, (part :: above).reverse⟩
    match ← files.ensureFolder path with
    | .ok () => return .ok ()
    | .error fault =>
      if fault.isMissing then
        match ← files.ensureParts anchor above with
        | .ok () => files.ensureFolder path
        | .error aboveFault => return .error aboveFault
      else return .error fault

/-- Make a folder and the folders above it, where folders that are there already will do. -/
def ensureFolders (files : Files m) (path : Path) : m (Except FileFault Unit) :=
  files.ensureParts path.anchor path.parts.reverse

/-- The text of a file, with line feeds as line endings. -/
def readText (files : Files m) (path : Path) : m (Except DocumentFault String) := do
  match ← files.read path with
  | .error fault => return .error (.access fault)
  | .ok octets =>
    match decodeText octets with
    | .error fault => return .error (.encoding fault)
    | .ok text => return .ok (unifyLines text)

/-- The object that the text of a file denotes. -/
def readObject (files : Files m) (path : Path) : m (Except DocumentFault (Fields Json)) := do
  match ← files.readText path with
  | .error fault => return .error fault
  | .ok text =>
    match Json.read text with
    | .error fault => return .error (.malformed fault)
    | .ok (.obj fields) => return .ok fields
    | .ok _ => return .error .notAnObject

/-- Write a file and the folders above it. -/
def writeBelow (files : Files m) (path : Path) (text : String) : m (Except FileFault Unit) := do
  match ← files.ensureFolders path.parent with
  | .error fault => return .error fault
  | .ok () => files.write path text

/-- Write an output file, whose faults become the given error, and report it. -/
def writeOutput (files : Files m) (path : Path) (text : String) (toError : FileFault → Error) :
    Job m Unit := do
  Job.attempt (files.writeBelow path text) toError
  Job.note (.fileWritten path.text)

end Files

end DesignTokens
