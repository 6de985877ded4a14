import DesignTokens.CommandLine.Programs
import Std.Time.DateTime.Timestamp

/-!
# The executable

The executable runs a program on the real file system and at the present time. Its own name says
which program: under any other name than that of a program it builds.
-/

namespace DesignTokens

namespace CommandLine

/-- The refusal that a system error reports. Some requests give the number of an error negated. -/
def refusal? : IO.Error → Option FileRefusal
  | .noFileOrDirectory .. => some .missing
  | .permissionDenied .. => some .denied
  | .alreadyExists .. => some .exists
  | .inappropriateType _ number _ | .invalidArgument _ number _ =>
    [FileRefusal.notFolder, .isFolder, .nameTooLong].find? fun refusal =>
      refusal.number == number.toNat || refusal.number == (-number).toNat
  | _ => none

/-- A request on a path, with a refusal as its result. Other errors end the program. -/
def attempt {α : Type} (path : Path) (request : IO α) : IO (Except FileFault α) := do
  if path.hasNull then return .error .nullInPath
  match ← request.toBaseIO with
  | .ok a => return .ok a
  | .error e =>
    match refusal? e with
    | some refusal => return .error (.refused refusal path.text)
    | none => throw e

/-- The requests on the real file system. -/
def systemFiles : Files IO where
  read path := attempt path (IO.FS.readBinFile path.text)
  isFolder path := (System.mkFilePath [path.text]).isDir
  makeFolder path := attempt path (IO.FS.createDir path.text)
  write path text := attempt path (IO.FS.writeFile path.text text)

/-- The present moment. -/
def presentMoment : IO Moment := do
  let microseconds := (← Std.Time.Timestamp.now).toNanosecondsSinceUnixEpoch.val / 1000
  return (Moment.ofUnixTime? microseconds).getD ⟨⟨1970, 1, 1⟩, 0, 0, 0, 0, some 0⟩

end CommandLine

end DesignTokens

open DesignTokens DesignTokens.CommandLine in
/-- Run the program that the executable is named for. -/
def main (words : List String) : IO UInt32 := do
  let name := (← IO.appPath).fileName.getD ""
  let program := (Program.ofName? name).getD .build
  let ending ← program.run systemFiles (← presentMoment) words
  let out ← IO.getStdout
  ending.help.forM out.putStrLn
  let log ← IO.getStderr
  ending.lines.forM log.putStrLn
  if let some fault := ending.fault then
    log.putStrLn fault.text
  return ending.code
