import SignalScript.Diagnostic
import SignalScript.Signal.Types

/-!
# Route configuration

A configuration file names the directory of a route, its signal types and its script files, in
lines that begin with a slash and a directive. Blank lines, comments behind `;`, and other
directives are passed over; a known directive with the wrong number of arguments is reported and
changes nothing.

Arguments are separated by the blanks of ASCII. Between double quotes blanks belong to the
argument, and a backslash stands in front of a character that is meant literally; an argument in
quotes may be empty.

## Main definitions

* `splitArguments` — the arguments of a directive
* `Config`, `ConfigError` — the configuration, and a line that was not understood
* `Config.parse` — reads a configuration file
-/

namespace SignalScript

/-- Adds an argument in front, unless it is empty and was not quoted. `held` holds its characters,
last one first. -/
def emitArgument (held : Text) (quoted : Bool) (more : List Text) : List Text :=
  if held.isEmpty && !quoted then more else held.reverse :: more

/-- The arguments in a text when `held`, last character first, is the argument so far. -/
def splitArgumentsAfter (held : Text) (inQuotes quoted : Bool) : Text → List Text
  | [] => emitArgument held quoted []
  | c :: rest =>
    if c = '"' then splitArgumentsAfter held (!inQuotes) true rest
    else if c = '\\' ∧ inQuotes then
      -- Whatever the backslash stands in front of belongs to the argument.
      match rest with
      | [] => emitArgument held quoted []
      | d :: rest => splitArgumentsAfter (d :: held) inQuotes quoted rest
    else if Text.isAsciiBlank c && !inQuotes then
      emitArgument held quoted (splitArgumentsAfter [] inQuotes false rest)
    else splitArgumentsAfter (c :: held) inQuotes quoted rest

/-- The arguments of a directive. -/
def splitArguments (text : Text) : List Text := splitArgumentsAfter [] false false text

/-- What is wrong with a directive. -/
inductive ConfigCause
  | noDirectory
  | severalDirectories (count : Nat)
  | noType
  | noFile
  deriving DecidableEq, Repr

/-- The wording of a cause. -/
def ConfigCause.message : ConfigCause → String
  | .noDirectory => "/routedir requires a directory"
  | .severalDirectories count =>
    "/routedir takes one directory, got " ++ (Decimal.writeNat count).string
  | .noType => "/signaltype requires at least one name"
  | .noFile => "/scriptfile requires a file name"

/-- A line of a configuration that was not understood. -/
structure ConfigError where
  line : Nat
  cause : ConfigCause
  deriving DecidableEq, Repr

/-- The error as text. -/
def ConfigError.text (error : ConfigError) : String :=
  "line " ++ (Decimal.writeNat error.line).string ++ ": " ++ error.cause.message

/-- The configuration of a route. -/
structure Config where
  routeDir : Option Text
  signalTypes : List Text
  scriptFiles : List Text
  deriving DecidableEq, Repr

namespace Config

/-- The configuration that says nothing. -/
def empty : Config := ⟨none, [], []⟩

/-- The directory that script files are looked up in: the current one, unless another is named. -/
def directory (config : Config) : Text := config.routeDir.getD ['.']

/-- The known signal types. -/
def types (config : Config) : SignalTypes := SignalTypes.ofNames config.signalTypes

/-- The configuration after a directive, or what is wrong with it. -/
def apply (config : Config) (directive : Text) (arguments : List Text) :
    Except ConfigCause Config :=
  if directive = "routedir".toList then
    match arguments with
    | [directory] => .ok { config with routeDir := some directory }
    | [] => .error .noDirectory
    | _ => .error (.severalDirectories arguments.length)
  else if directive = "signaltype".toList then
    if arguments.isEmpty then .error .noType
    else .ok { config with signalTypes := config.signalTypes ++ arguments }
  else if directive = "scriptfile".toList then
    if arguments.isEmpty then .error .noFile
    else .ok { config with scriptFiles := config.scriptFiles ++ arguments }
  else .ok config

/-- The directive of a line in small letters, with its arguments, if the line has one. -/
def directive? (line : Text) : Option (Text × List Text) :=
  match Text.trim line with
  | '/' :: rest =>
    match Text.cutWhere? Text.isAsciiBlank rest with
    | some (directive, _, arguments) =>
      some (Text.asciiLower directive, splitArguments (Text.trim arguments))
    | none => some (Text.asciiLower rest, [])
  | _ => none

/-- Reads the lines of a configuration, the first of which has the given number. -/
def parseLines (config : Config) (number : Nat) : List Text → Noted ConfigError Config
  | [] => pure config
  | line :: rest =>
    match directive? line with
    | none => parseLines config (number + 1) rest
    | some (directive, arguments) =>
      match config.apply directive arguments with
      | .ok config => parseLines config (number + 1) rest
      | .error cause => do
        note ⟨number, cause⟩
        parseLines config (number + 1) rest

/-- Reads a configuration file. -/
def parse (text : Text) : Noted ConfigError Config := parseLines empty 1 (Text.pieces '\n' text)

end Config

end SignalScript
