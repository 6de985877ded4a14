import DesignTokens.Json.Literal

/-!
# Faults of files

A `FileFault` is a request on a path that the file system refuses, or that cannot be made. An
`EncodingFault` is a place where octets are not UTF-8: the octets of the longest start of a sequence
that could still be completed, and the reason why it is not.
-/

namespace DesignTokens

/-- Why a request on a path is refused. -/
inductive FileRefusal where
  | missing
  | denied
  | exists
  | notFolder
  | isFolder
  | nameTooLong
  deriving DecidableEq

namespace FileRefusal

/-- The name of the refusal. -/
def name : FileRefusal → String
  | .missing => "FileNotFoundError"
  | .denied => "PermissionError"
  | .exists => "FileExistsError"
  | .notFolder => "NotADirectoryError"
  | .isFolder => "IsADirectoryError"
  | .nameTooLong => "OSError"

/-- The number of the refusal. -/
def number : FileRefusal → Nat
  | .missing => 2
  | .denied => 13
  | .exists => 17
  | .notFolder => 20
  | .isFolder => 21
  | .nameTooLong => 36

/-- The description of the refusal. -/
def description : FileRefusal → String
  | .missing => "No such file or directory"
  | .denied => "Permission denied"
  | .exists => "File exists"
  | .notFolder => "Not a directory"
  | .isFolder => "Is a directory"
  | .nameTooLong => "File name too long"

end FileRefusal

/-- Why a request on a path fails. -/
inductive FileFault where
  | refused (refusal : FileRefusal) (path : String)
  /-- The path holds a null character, at which a file system would take it to end. -/
  | nullInPath
  deriving DecidableEq

namespace FileFault

/-- The fault is that something on the way is not there. -/
def isMissing : FileFault → Bool
  | .refused .missing _ => true
  | _ => false

/-- What the fault says. -/
def message : FileFault → String
  | .refused refusal path =>
    "[Errno " ++ toString refusal.number ++ "] " ++ refusal.description ++ ": " ++
      Json.literalText path
  | .nullInPath => "embedded null byte"

/-- What the fault says, after the name of a refusal. -/
def named : FileFault → String
  | .refused refusal path => refusal.name ++ ": " ++ (refused refusal path).message
  | .nullInPath => nullInPath.message

end FileFault

/-- Why octets are not UTF-8. -/
inductive EncodingReason where
  | invalidStart
  | invalidContinuation
  | unexpectedEnd
  deriving DecidableEq

/-- The description of a reason. -/
def EncodingReason.description : EncodingReason → String
  | .invalidStart => "invalid start byte"
  | .invalidContinuation => "invalid continuation byte"
  | .unexpectedEnd => "unexpected end of data"

/-- The first place where octets are not UTF-8. -/
structure EncodingFault where
  first : UInt8
  position : Nat
  length : Nat
  reason : EncodingReason
  deriving DecidableEq

/-- What the fault says. -/
def EncodingFault.message (fault : EncodingFault) : String :=
  let octet := String.ofList (Json.hexChars 2 fault.first.toNat)
  let place :=
    if fault.length = 1 then "byte 0x" ++ octet ++ " in position " ++ toString fault.position
    else "bytes in position " ++ toString fault.position ++ "-" ++
      toString (fault.position + fault.length - 1)
  "'utf-8' codec can't decode " ++ place ++ ": " ++ fault.reason.description

end DesignTokens
