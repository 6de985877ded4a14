import DesignTokens.Build.Run
import DesignTokens.CommandLine.Grammar

/-!
# Programs

There are two programs. One builds the outputs of a token document, and the other one shows or
sets the version of a package. A program reads its command line, does its work, and ends with an
exit code and with the lines that it reports: the events from a level on, and the reason when it
fails. An error that it does not report breaks it off.
-/

namespace DesignTokens

namespace CommandLine

/-- How a program ends. -/
structure Ending where
  code : UInt32
  /-- What is reported, line by line. -/
  lines : List String
  /-- What is answered to a request for help, line by line. -/
  help : List String := []
  /-- The error that broke the program off. -/
  fault : Option Error := none
  deriving DecidableEq

namespace Ending

/-- The exit code of a program that did its work. -/
def success : UInt32 := 0

/-- The exit code of a program that failed in its work. -/
def failure : UInt32 := 1

/-- The exit code of a program whose command line is refused. -/
def misuse : UInt32 := 2

/-- The ending of work with an outcome. Events below a level are not shown, and `failed` reports
the reason of an error that is reported. -/
def ofOutcome {α : Type} (least : Level) (failed : String → Event) (x : Outcome α) : Ending :=
  let shown := x.log.filter fun event => least.rank ≤ event.level.rank
  match x.result with
  | .ok _ => { code := success, lines := shown.map Event.line }
  | .error e =>
    if e.isReported then { code := failure, lines := (shown ++ [failed e.text]).map Event.line }
    else { code := failure, lines := shown.map Event.line, fault := some e }

end Ending

/-- What a command line says to the build program. -/
structure BuildSettings where
  config : BuildConfig := {}
  /-- Show every event. -/
  verbose : Bool := false
  /-- The names of options that want a path and have no value. -/
  pathless : List String := []

/-- What a command line says to the version program. -/
structure SyncSettings where
  /-- The version to write. Without one the versions are compared. -/
  version : Option String := none
  /-- The path of the package manifest, and nothing when its option has no value. -/
  package : Option String := some "package.json"
  /-- The path of the project manifest, and nothing when its option has no value. -/
  project : Option String := some "Ivy.DesignSystem.csproj"

/-- What an option without a value holds. -/
def noValue : Json := .arr []

/-- The error that an option without a value stands where a path is wanted. -/
def pathMissing : Error :=
  .notAPath noValue.kindName

/-- The value of an option as a name. -/
def nameOf (text : Option String) : String :=
  text.getD noValue.display

/-- The option that asks for help. -/
def helpFlag {σ : Type} : Flag σ :=
  ⟨["-h", "--help"], .help⟩

/-- An option of the build program for a path, of which the last one counts. -/
def pathFlag (name : String) (set : Path → BuildConfig → BuildConfig) : Flag BuildSettings :=
  ⟨[name], .value fun text s =>
    match text with
    | some text =>
      { s with
        config := set (.ofText text) s.config
        pathless := s.pathless.filter fun other => other != name }
    | none => { s with pathless := name :: s.pathless }⟩

/-- The option of the build program for documents that are merged onto the tokens. -/
def overlayFlag : Flag BuildSettings :=
  ⟨["--overlay"], .value fun text s =>
    match text with
    | some text => { s with config.overlays := s.config.overlays ++ [.ofText text] }
    | none => { s with pathless := "--overlay" :: s.pathless }⟩

/-- The command line of the build program. -/
def buildGrammar : Grammar BuildSettings where
  options :=
    [helpFlag,
     pathFlag "--out" fun path c => { c with outputFolder := path },
     ⟨["--product"], .value fun text s => { s with config.product := nameOf text }⟩,
     ⟨["--scope-id"], .value fun text s => { s with config.scopeId := text }⟩,
     ⟨["--namespace"], .value fun text s => { s with config.namespaceName := nameOf text }⟩,
     overlayFlag,
     ⟨["--strict-aliases"], .flag fun s => { s with config.strictAliases := true }⟩,
     ⟨["--validate"], .flag fun s => { s with config.validate := true }⟩,
     ⟨["--no-version-check"], .flag fun s => { s with config.checkVersions := false }⟩,
     pathFlag "--package-json" fun path c => { c with packagePath := path },
     pathFlag "--csproj" fun path c => { c with projectPath := path },
     ⟨["-v", "--verbose"], .flag fun s => { s with verbose := true }⟩]
  operand := fun text s => { s with config.tokensPath := .ofText text }

/-- The command line of the version program. -/
def syncGrammar : Grammar SyncSettings where
  options :=
    [helpFlag,
     ⟨["--package-json"], .value fun text s => { s with package := text }⟩,
     ⟨["--csproj"], .value fun text s => { s with project := text }⟩]
  operand := fun text s => { s with version := some text }

/-- A program. -/
inductive Program where
  | build
  | syncVersion
  deriving DecidableEq

namespace Program

/-- The name under which a program is called. -/
def name : Program → String
  | .build => "tokenweave"
  | .syncVersion => "tokenweave-sync-version"

/-- The program with a name. -/
def ofName? (name : String) : Option Program :=
  [build, syncVersion].find? fun program => program.name == name

variable {m : Type → Type} [Monad m]

/-- The work of the build program. -/
def buildWork (files : Files m) (now : Moment) (settings : BuildSettings) : Job m Unit := do
  if !settings.pathless.isEmpty then
    Job.fail pathMissing
  let _ ← files.build settings.config now

/-- The work of the version program. A version that is not valid is refused before a path is
looked at, and the package manifest is read before the path of the project manifest is. -/
def syncWork (files : Files m) (settings : SyncSettings) : Job m Unit := do
  match settings.version, settings.package, settings.project with
  | none, some package, some project =>
    let _ ← files.ensureSynchronized (.ofText package) (.ofText project) project
  | none, some package, none =>
    let _ ← files.packageVersion (.ofText package)
    Job.fail pathMissing
  | none, none, _ => Job.fail pathMissing
  | some version, some package, some project =>
    let status ← files.syncVersions version (.ofText package) (.ofText project)
    Job.note (.versionsWritten status.npm)
  | some version, _, _ =>
    Job.fail (if Version.isValid version then pathMissing else .invalidVersion version)

/-- The ending of a program with a command line: that of its work when settings can be read. -/
def conclude {σ : Type} (program : Program) (grammar : Grammar σ) (default : σ)
    (words : List String) (work : σ → m Ending) : m Ending :=
  match grammar.read default words with
  | .settings s => work s
  | .help =>
    pure { code := Ending.success, lines := [], help := grammar.usage program.name }
  | .refused refusal =>
    pure
      { code := Ending.misuse
        lines := [program.name ++ ": error: " ++ refusal.message] }

/-- Run a program with the words of a command line. `now` is the moment of the generated
timestamps. -/
def run (program : Program) (files : Files m) (now : Moment) (words : List String) : m Ending :=
  match program with
  | .build =>
    program.conclude buildGrammar {} words fun s => do
      let outcome : Outcome Unit ← buildWork files now s
      return .ofOutcome (if s.verbose then .debug else .info) .buildFailed outcome
  | .syncVersion =>
    program.conclude syncGrammar {} words fun s => do
      let outcome : Outcome Unit ← syncWork files s
      return .ofOutcome .info .versionFailed outcome

end Program

end CommandLine

end DesignTokens
