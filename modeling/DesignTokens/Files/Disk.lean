import DesignTokens.Files.Access

/-!
# A disk

A disk is a file system as a value: files and folders by location, the folder in use, and paths
that may not be written. A location is a list of names from the root, and a path is followed from
folder to folder. Every request is answered as a file system answers it, with its limits on the
lengths of names and paths in octets, and a refused request changes nothing.
-/

namespace DesignTokens

/-- What stands at a location. -/
inductive DiskEntry where
  | folder
  | file (octets : ByteArray)

/-- Names from the root. -/
abbrev Location := List String

/-- A file system as a value. -/
structure Disk where
  entries : List (Location × DiskEntry) := []
  /-- The folder in use. -/
  here : Location := []
  /-- The texts of paths that may not be written. -/
  locked : List String := []

namespace Disk

/-- The greatest length of a name. -/
def nameLimit : Nat := 255

/-- The greatest length of the text of a path. -/
def pathLimit : Nat := 4095

/-- What stands at a location. The folder in use and the folders above it are always there. -/
def entry? (disk : Disk) (location : Location) : Option DiskEntry :=
  if location.isPrefixOf disk.here then some .folder else disk.entries.lookup location

/-- The disk with an entry put at a location. -/
def put (disk : Disk) (location : Location) (entry : DiskEntry) : Disk :=
  { disk with entries := (location, entry) :: disk.entries.filter fun old => old.1 != location }

/-- The location that parts lead to from another one. Every part is looked up in a folder. -/
def follow (disk : Disk) : Location → List String → Except FileRefusal Location
  | location, [] => .ok location
  | location, part :: parts =>
    match disk.entry? location with
    | none => .error .missing
    | some (.file _) => .error .notFolder
    | some .folder =>
      if nameLimit < part.utf8ByteSize then .error .nameTooLong
      else disk.follow (if part = ".." then location.dropLast else location ++ [part]) parts

/-- The location of a path. -/
def locate (disk : Disk) (path : Path) : Except FileRefusal Location :=
  if pathLimit < path.text.utf8ByteSize then .error .nameTooLong
  else disk.follow (if path.anchor = "" then disk.here else []) path.parts

/-- The octets of the file at a path. -/
def readOctets (disk : Disk) (path : Path) : Except FileRefusal ByteArray := do
  let location ← disk.locate path
  match disk.entry? location with
  | none => .error .missing
  | some .folder => .error .isFolder
  | some (.file octets) => .ok octets

/-- The path is a folder. -/
def isFolder (disk : Disk) (path : Path) : Bool :=
  match disk.locate path with
  | .error _ => false
  | .ok location =>
    match disk.entry? location with
    | some .folder => true
    | _ => false

/-- The disk with one more folder. -/
def addFolder (disk : Disk) (path : Path) : Except FileRefusal Disk := do
  let location ← disk.locate path
  match disk.entry? location with
  | none => .ok (disk.put location .folder)
  | some _ => .error .exists

/-- The disk with octets as the whole content of the file at a path. -/
def writeOctets (disk : Disk) (path : Path) (octets : ByteArray) : Except FileRefusal Disk := do
  let location ← disk.locate path
  match disk.entry? location with
  | some .folder => .error .isFolder
  | _ => .ok (disk.put location (.file octets))

/-- The disk with a text as the whole content of the file at a path, unless the path is locked. -/
def writeText (disk : Disk) (path : Path) (text : String) : Except FileRefusal Disk :=
  if disk.locked.contains path.text then .error .denied
  else disk.writeOctets path text.toUTF8

/-- The answer to a request on a path, with the path in the fault when it is refused. -/
def answer {α : Type} (path : Path) (result : Except FileRefusal α) : Except FileFault α :=
  if path.hasNull then .error .nullInPath
  else result.mapError fun refusal => .refused refusal path.text

/-- The answer to a request that changes the disk, and the disk after it. -/
def change (request : Disk → Except FileRefusal Disk) (path : Path) :
    StateM Disk (Except FileFault Unit) := fun disk =>
  match answer path (request disk) with
  | .ok changed => (.ok (), changed)
  | .error fault => (.error fault, disk)

/-- The requests on a disk. -/
def files : Files (StateM Disk) where
  read path := fun disk => (answer path (disk.readOctets path), disk)
  isFolder path := fun disk => (disk.isFolder path, disk)
  makeFolder path := change (·.addFolder path) path
  write path text := change (·.writeText path text) path

/-- The files of a disk below the folder in use, with the parts that lead to them. -/
def filesHere (disk : Disk) : List (Location × ByteArray) :=
  disk.entries.filterMap fun (location, entry) =>
    match entry with
    | .folder => none
    | .file octets =>
      if disk.here.isPrefixOf location then some (location.drop disk.here.length, octets) else none

end Disk

end DesignTokens
