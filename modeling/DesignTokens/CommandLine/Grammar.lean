import DesignTokens.Json.Literal
import DesignTokens.Text.DecimalDigit
import DesignTokens.Text.LineFeed

/-!
# Command lines

A command line is options and at most one operand. An option is named in full or by any initial
part that fits no other option, and its value follows it or is attached with `=`. Options of one
letter may be joined, with or without an equals sign behind the first one. After the separator `--`
every word is an operand, and so is a word that looks like a negative number or has a space and is
no option. A separator that is attached to an option is dropped, so that the option has no value.

Words are first told apart, then taken in order. The first word that does not fit is the reason of
a refusal, and words that are left over are refused at the end.
-/

namespace DesignTokens

namespace CommandLine

/-- The word that separates options from operands. -/
def separator : String := "--"

/-- What an option does to settings. -/
inductive Effect (σ : Type) where
  | flag (set : σ → σ)
  /-- The option takes a value, which is nothing when a separator was attached to it. -/
  | value (set : Option String → σ → σ)
  | help

/-- An option and its names. -/
structure Flag (σ : Type) where
  names : List String
  effect : Effect σ

/-- All names of an option. -/
def Flag.title {σ : Type} (option : Flag σ) : String :=
  "/".intercalate option.names

/-- The option takes a value. -/
def Flag.takesValue {σ : Type} (option : Flag σ) : Bool :=
  match option.effect with
  | .value _ => true
  | _ => false

/-- The options of a program, and what its operand does to settings. -/
structure Grammar (σ : Type) where
  options : List (Flag σ)
  operand : String → σ → σ

/-- A text attached to the name of an option. -/
inductive Attachment where
  /-- The text is the value of the option. -/
  | value (text : String)
  /-- The characters are the value of a one-letter option, or name more of them. -/
  | joined (cs : List Char)

/-- A word of a command line. -/
inductive Word (σ : Type) where
  | operand
  | separator
  | unknown
  | option (option : Flag σ) (attached : Option Attachment)

/-- Why a command line is refused. -/
inductive Refusal where
  | ambiguous (word : String) (names : List String)
  | valueMissing (title : String)
  | valueIgnored (title text : String)
  | unrecognized (words : List String)
  deriving DecidableEq

/-- What a refusal says. -/
def Refusal.message : Refusal → String
  | .ambiguous word names =>
    "ambiguous option: " ++ word ++ " could match " ++ ", ".intercalate names
  | .valueMissing title => "argument " ++ title ++ ": expected one argument"
  | .valueIgnored title text =>
    "argument " ++ title ++ ": ignored explicit argument " ++ Json.literalText text
  | .unrecognized words => "unrecognized arguments: " ++ " ".intercalate words

/-- The result of reading a command line. -/
inductive Reading (σ : Type) where
  | settings (s : σ)
  | help
  | refused (refusal : Refusal)

namespace Grammar

variable {σ : Type} (grammar : Grammar σ)

/-- A line with the name of a program, and a line for every option. -/
def usage (program : String) : List String :=
  ("usage: " ++ program ++ " [options] [operand]") ::
    grammar.options.map fun option => "  " ++ option.title

/-- Every name together with its option. -/
def names : List (String × Flag σ) :=
  grammar.options.flatMap fun option => option.names.map fun name => (name, option)

/-- The option with a name. -/
def named? (name : String) : Option (Flag σ) :=
  grammar.names.lookup name

/-- The parts before and after the first equals sign. -/
def cutAtEquals : List Char → Option (List Char × List Char)
  | [] => none
  | c :: rest =>
    if c = '=' then some ([], rest)
    else (cutAtEquals rest).map fun parts => (c :: parts.1, parts.2)

/-- The options whose name starts with a text, with the text attached to them. -/
def completions (start : List Char) (attached : Option Attachment) : List (String × Word σ) :=
  grammar.names.filterMap fun (name, option) =>
    if start.isPrefixOf name.toList then some (name, .option option attached) else none

/-- The options that a word with two hyphens in front may mean. -/
def longCandidates (word : List Char) : List (String × Word σ) :=
  match cutAtEquals word with
  | some (start, text) => grammar.completions start (some (.value (String.ofList text)))
  | none => grammar.completions word none

/-- The options that a word with one hyphen in front may mean. -/
def shortCandidates (word : List Char) : List (String × Word σ) :=
  grammar.names.filterMap fun (name, option) =>
    if name.toList = word.take 2 then
      some (name, .option option (some (.joined (word.drop 2))))
    else if word.isPrefixOf name.toList then some (name, .option option none)
    else none

/-- The options that a word may mean. -/
def candidates : List Char → List (String × Word σ)
  | '-' :: '-' :: rest => grammar.longCandidates ('-' :: '-' :: rest)
  | word => grammar.shortCandidates word

/-- The characters are a hyphen and a number without exponent. -/
def isNegativeNumber : List Char → Bool
  | '-' :: rest =>
    match (Text.dropFinalLineFeed rest).splitOn '.' with
    | [whole] => Text.isNumber whole
    | [whole, fraction] => whole.all Text.isDecimalDigit && Text.isNumber fraction
    | _ => false
  | _ => false

/-- What is attached to an option that is named in full by the text after an equals sign. -/
def attachment (name text : List Char) : Attachment :=
  if name.take 2 = ['-', '-'] ∨ text = [] then .value (String.ofList text) else .joined text

/-- The option that a word names in full, possibly with a text attached after an equals sign. -/
def inFull? (word : String) : Option (Word σ) :=
  match grammar.named? word with
  | some option => some (.option option none)
  | none => do
    let (name, text) ← cutAtEquals word.toList
    let option ← grammar.named? (String.ofList name)
    some (.option option (some (attachment name text)))

/-- What a word that starts with a hyphen and is longer than that means. -/
def hyphenated (word : String) : Except Refusal (Word σ) :=
  match grammar.inFull? word with
  | some found => .ok found
  | none =>
    match grammar.candidates word.toList with
    | [(_, found)] => .ok found
    | [] =>
      if isNegativeNumber word.toList || word.toList.contains ' ' then .ok .operand
      else .ok .unknown
    | several => .error (.ambiguous word (several.map Prod.fst))

/-- What a word means that does not come after a separator. -/
def classify (word : String) : Except Refusal (Word σ) :=
  match word.toList with
  | '-' :: _ :: _ => if word = separator then .ok .separator else grammar.hyphenated word
  | _ => .ok .operand

/-- The words of a command line with their meanings. -/
def classifyAll : List String → Except Refusal (List (String × Word σ))
  | [] => .ok []
  | word :: rest =>
    match grammar.classify word with
    | .error refusal => .error refusal
    | .ok .separator =>
      .ok ((word, .separator) :: rest.map fun operand => (operand, .operand))
    | .ok meaning => (classifyAll rest).map fun meanings => (word, meaning) :: meanings

/-- Whether the operand is still missing, was the last word taken, or was taken earlier. -/
inductive OperandState where
  | missing
  | fresh
  | taken

/-- A reading in progress: the settings, the operand, and the words left over in reverse order. -/
structure Progress (σ : Type) where
  settings : σ
  operand : OperandState
  leftOver : List String

/-- The progress with one more word left over. -/
def Progress.leave {σ : Type} (p : Progress σ) (word : String) : Progress σ :=
  { p with leftOver := word :: p.leftOver }

/-- The progress past an option, before which an operand was taken earlier if at all. -/
def Progress.pastOption {σ : Type} (p : Progress σ) : Progress σ :=
  match p.operand with
  | .missing => p
  | _ => { p with operand := .taken }

/-- The progress past an option that changes the settings. -/
def Progress.apply {σ : Type} (p : Progress σ) (set : σ → σ) : Progress σ :=
  { p.pastOption with settings := set p.settings }

/-- The options that one word names, of which only the last may take a value. -/
inductive Named (σ : Type) where
  /-- The value is there, was dropped, or is not wanted. -/
  | complete (options : List (Flag σ)) (value : Option String)
  /-- The last option wants its value from the next word. -/
  | wanting (options : List (Flag σ)) (last : Flag σ)

/-- One more option in front of those that a word names. -/
def Named.after {σ : Type} (option : Flag σ) : Named σ → Named σ
  | .complete options value => .complete (option :: options) value
  | .wanting options last => .wanting (option :: options) last

/-- An option to which nothing is attached. -/
def bare (option : Flag σ) : Named σ :=
  if option.takesValue then .wanting [option] option else .complete [option] none

/-- The value that an attached text is. -/
def attachedValue (text : String) : Option String :=
  if text = separator then none else some text

/-- An option with a text attached as its value, which it must take. -/
def withValue (option : Flag σ) (text : String) : Except Refusal (Named σ) :=
  if option.takesValue then .ok (.complete [option] (attachedValue text))
  else .error (.valueIgnored option.title text)

/-- An option with characters joined to it. They are its value when it takes one, and otherwise
every one of them must name an option. -/
def joined (option : Flag σ) : List Char → Except Refusal (Named σ)
  | [] => .ok (bare option)
  | c :: rest =>
    if option.takesValue then
      .ok (.complete [option] (attachedValue (String.ofList (c :: rest))))
    else
      match grammar.named? (String.ofList ['-', c]) with
      | some next => (joined next rest).map (Named.after option)
      | none => .error (.valueIgnored option.title (String.ofList (c :: rest)))

/-- The options that a word names. -/
def namedBy (option : Flag σ) : Option Attachment → Except Refusal (Named σ)
  | none => .ok (bare option)
  | some (.value text) => withValue option text
  | some (.joined cs) => grammar.joined option cs

/-- The progress past options in order, and nothing when one of them asks for help. -/
def pass (value : Option String) : List (Flag σ) → Progress σ → Option (Progress σ)
  | [], p => some p
  | option :: rest, p =>
    match option.effect with
    | .flag set => pass value rest (p.apply set)
    | .value set => pass value rest (p.apply (set value))
    | .help => none

/-- Take words in order. -/
def take (p : Progress σ) : List (String × Word σ) → Reading σ
  | [] =>
    if p.leftOver.isEmpty then .settings p.settings
    else .refused (.unrecognized p.leftOver.reverse)
  | (word, .operand) :: rest =>
    match p.operand with
    | .missing =>
      take { p with settings := grammar.operand word p.settings, operand := .fresh } rest
    | _ => take ({ p with operand := .taken }.leave word) rest
  | (word, .separator) :: rest =>
    match p.operand with
    | .missing => take p rest
    | .fresh => take { p with operand := .taken } rest
    | .taken => take (p.leave word) rest
  | (word, .unknown) :: rest => take (p.leave word).pastOption rest
  | (_, .option option attached) :: rest =>
    match grammar.namedBy option attached with
    | .error refusal => .refused refusal
    | .ok (.complete options value) =>
      match pass value options p with
      | some p => take p rest
      | none => .help
    | .ok (.wanting options last) =>
      match rest with
      | (value, .operand) :: later =>
        match pass (some value) options p with
        | some p => take p later
        | none => .help
      | _ => .refused (.valueMissing last.title)

/-- Read a command line, given the settings that hold when nothing is said. -/
def read (default : σ) (words : List String) : Reading σ :=
  match grammar.classifyAll words with
  | .error refusal => .refused refusal
  | .ok meanings => grammar.take ⟨default, .missing, []⟩ meanings

end Grammar

end CommandLine

end DesignTokens
