import DesignTokens.Json.Literal
import DesignTokens.Validation.Issue

/-!
# Events

Everything the program reports while it works is an event. An event has a level, the channel on
which it is reported, and a text.
-/

namespace DesignTokens

/-- The levels of events, from the least to the most serious. -/
inductive Level where
  | debug
  | info
  | warning
  | error
  deriving DecidableEq

namespace Level

/-- The word for a level. -/
def word : Level → String
  | .debug => "DEBUG"
  | .info => "INFO"
  | .warning => "WARNING"
  | .error => "ERROR"

/-- The rank of a level. -/
def rank : Level → Nat
  | .debug => 0
  | .info => 1
  | .warning => 2
  | .error => 3

end Level

/-- What the program reports. -/
inductive Event where
  /-- A theme wrapper has these variants, of which only the first is used. -/
  | variantsSkipped (variants : List String)
  /-- A reference names no color of the scope and stands as written. -/
  | unresolved (value scope : String)
  /-- A token has no flat name and is left out. -/
  | aliasMissing (path : String)
  | fileWritten (path : String)
  /-- Constants were generated in classes of these names. -/
  | constantsGenerated (count : Nat) (classes : List String)
  | versionAbsent (manifest : String)
  | versionsAgree (version : String)
  | manifestUpdated (manifest version : String)
  | buildStarted
  | overlaysMerged (count : Nat)
  | issueFound (issue : Issue)
  | namesExported (count : Nat)
  | buildFinished (count : Nat) (folder : String)
  | buildFailed (reason : String)
  | versionsWritten (version : Option String)
  | versionFailed (reason : String)
  deriving DecidableEq

namespace Event

/-- The level of an event. -/
def level : Event → Level
  | .unresolved .. | .aliasMissing _ => .debug
  | .variantsSkipped _ | .versionAbsent _ | .issueFound _ => .warning
  | .buildFailed _ | .versionFailed _ => .error
  | _ => .info

/-- The channel on which an event is reported. -/
def channel : Event → String
  | .variantsSkipped _ => "tokenweave.tree"
  | .unresolved .. => "tokenweave.references"
  | .aliasMissing _ => "tokenweave.emitters.flat_css"
  | .fileWritten _ => "tokenweave.emitters.base"
  | .constantsGenerated .. => "tokenweave.emitters.csharp"
  | .versionAbsent _ | .versionsAgree _ | .manifestUpdated .. => "tokenweave.versioning"
  | _ => "tokenweave.build"

/-- A version, or the word for none. -/
def versionWord (version : Option String) : String :=
  version.getD "None"

/-- What an event says. -/
def text : Event → String
  | .variantsSkipped variants =>
    "Theme wrapper has " ++ toString variants.length ++ " variants " ++
      Json.literalTexts variants ++ "; only '" ++ variants.headD "" ++ "' is traversed"
  | .unresolved value scope => "Unresolved reference " ++ value ++ " in scope " ++ scope
  | .aliasMissing path => "No flat alias for " ++ path ++ "; dropped"
  | .fileWritten path => "Wrote " ++ path
  | .constantsGenerated count classes =>
    "Generated " ++ toString count ++ " C# token properties (categories: " ++
      ", ".intercalate classes ++ ")"
  | .versionAbsent manifest => "Could not find version in " ++ manifest
  | .versionsAgree version => "Version: " ++ version ++ " (synchronized)"
  | .manifestUpdated manifest version => "Updated " ++ manifest ++ " to version " ++ version
  | .buildStarted => "Building Ivy Design System"
  | .overlaysMerged count => "Merged " ++ toString count ++ " overlay(s)"
  | .issueFound issue => "Validation " ++ issue.severity.word ++ ": " ++ issue.text
  | .namesExported count => "Generated " ++ toString count ++ " token exports"
  | .buildFinished count folder =>
    "Build complete: " ++ toString count ++ " files written to " ++ folder
  | .buildFailed reason => "Build failed: " ++ reason
  | .versionsWritten version => "Version sync complete: " ++ versionWord version
  | .versionFailed reason => reason

/-- An event as a line of the log. -/
def line (event : Event) : String :=
  event.level.word ++ " " ++ event.channel ++ ": " ++ event.text

end Event

end DesignTokens
