import SignalScript.CommandLine.Arguments
import SignalScript.Route.Config
import SignalScript.Route.Storage
import SignalScript.Signal.Registry
import SignalScript.Listing

/-!
# The program

The program reads the configuration of a route, compiles its scripts, reports how many there are
and what is wrong with them, and, if asked, lists them or brings one signal up to date.

Reading files is left to a storage; everything else is decided here.

## Main definitions

* `Completion` — exit code, output and error output of a run of the program
* `findConfig`, `readConfig`, `readScriptFiles` — the steps that read files
* `report` — what is printed about a route and a signal
* `runProgram` — the whole program
-/

namespace SignalScript

/-- What a run of the program leaves behind. -/
structure Completion where
  code : Nat
  output : String
  errors : String
  deriving DecidableEq, Repr

/-- The name of configuration files. -/
def configFileName : Text := "sigcfg.tf".toList

/-- Each line with its line feed. -/
def asLines (texts : List String) : String := String.join (texts.map (· ++ "\n"))

/-- The path of the configuration to read: the one asked for, or else the first that exists of the
one in the current directory and the one of the user. -/
def findConfig {m : Type → Type} [Monad m] (storage : Storage m) (userConfig : Option Text)
    (arguments : Arguments) : m (Option Text) := do
  match arguments.config with
  | some path => pure (some path)
  | none =>
    if ← storage.isPresent configFileName then pure (some configFileName)
    else
      match userConfig with
      | none => pure none
      | some path => if ← storage.isPresent path then pure (some path) else pure none

/-- Reads a configuration file. -/
def readConfig {m : Type → Type} [Monad m] (storage : Storage m) (path : Text) :
    m (Except ReadError (Noted ConfigError Config)) := do
  match ← storage.read path with
  | .error error => pure (.error error)
  | .ok bytes =>
    match Utf8.decode? bytes with
    | none => pure (.error .notText)
    | some text => pure (.ok (Config.parse text))

/-- The configuration with what the command line adds to it. -/
def Config.extended (config : Config) (arguments : Arguments) : Config where
  routeDir := arguments.routeDir <|> config.routeDir
  signalTypes := config.signalTypes ++ arguments.signalTypes
  scriptFiles := config.scriptFiles ++ arguments.files

/-- Reads the script files of a route. -/
def readScriptFiles {m : Type → Type} [Monad m] (storage : Storage m) (config : Config) :
    m (List ScriptFile) :=
  config.scriptFiles.mapM fun file => do
    let path := Path.join config.directory file
    let content ← storage.read path
    pure ⟨path.string, content⟩

/-- The name of an aspect, or its number if it has none. -/
def aspectName (aspect : Int32) : String :=
  match Family.aspect.memberName? aspect with
  | some member => Family.aspect.stem ++ member
  | none => (Decimal.write aspect.toInt).string

/-- What is printed about a signal brought up to date. -/
def reportSignal (type : Text) (updated : Updated FixedSignal) : String :=
  let how :=
    match updated.how with
    | .script _ => "script"
    | .fallback => "fallback"
  asLines [type.string ++ " (" ++ how ++ "):",
    "  " ++ ExternalVariable.state.name ++ " = " ++ aspectName updated.host.state,
    "  " ++ ExternalVariable.drawState.name ++ " = " ++
      (Decimal.write updated.host.drawState.toInt).string]

/-- The number as text. -/
def numeral (n : Nat) : String := (Decimal.writeNat n).string

/-- The line that counts scripts, types and diagnostics. -/
def summary (types : SignalTypes) (registry : Noted Diagnostic Registry) : String :=
  numeral registry.value.size ++ " script(s) compiled for " ++ numeral types.size ++
    " signal type(s), " ++ numeral registry.notes.length ++ " diagnostic(s)\n"

/-- What is printed about a route, and about a signal if one is to be evaluated. -/
def report (arguments : Arguments) (types : SignalTypes) (registry : Noted Diagnostic Registry) :
    Completion :=
  let listings :=
    if arguments.dump then String.join (registry.value.toList.map fun script =>
      script.listing.string)
    else ""
  let output := summary types registry ++ listings
  let errors := asLines (registry.notes.map Diagnostic.text)
  -- A file that cannot be read ends the run before any signal is looked at.
  let unreadable := registry.notes.countP fun diagnostic => diagnostic.kind = .io
  if unreadable ≠ 0 then
    ⟨1, output,
      errors ++ "sigscr: " ++ numeral unreadable ++ " script file(s) could not be read\n"⟩
  else
    match arguments.eval with
    | none => ⟨0, output, errors⟩
    | some name =>
      match types.resolve? name with
      | none => ⟨1, output, errors ++ "sigscr: unknown signal type " ++ backQuoted name ++ "\n"⟩
      | some type =>
        let updated := registry.value.update type arguments.bindings.signal
        ⟨0, output ++ reportSignal type updated, errors⟩

/-- Compiles the scripts of a route and reports on them. -/
def runRoute {m : Type → Type} [Monad m] (storage : Storage m) (arguments : Arguments)
    (config : Config) : m Completion := do
  let config := config.extended arguments
  let files ← readScriptFiles storage config
  pure (report arguments config.types (Registry.load config.types files))

/-- Runs the program with arguments that have been read. -/
def runArguments {m : Type → Type} [Monad m] (storage : Storage m) (userConfig : Option Text)
    (arguments : Arguments) : m Completion := do
  match ← findConfig storage userConfig arguments with
  | none => runRoute storage arguments Config.empty
  | some path =>
    match ← readConfig storage path with
    | .error error =>
      pure ⟨1, "", "sigscr: cannot read config " ++ path.string ++ ": " ++ error.message ++ "\n"⟩
    | .ok config => do
      let completion ← runRoute storage arguments config.value
      let errors := asLines (config.notes.map fun error => path.string ++ ": " ++ error.text)
      pure { completion with errors := errors ++ completion.errors }

/-- The summary of the options. -/
def usage : String :=
  asLines ["Compile signal scripts, report diagnostics and optionally evaluate one signal type",
    "", "Usage: sigscr [OPTIONS] [FILES]...", "", "Options:",
    "  -c, --config <CONFIG>      Signal configuration file",
    "  -r, --route <DIR>          Directory script files are looked up in",
    "  -t, --type <TYPE>          Additional signal type (repeatable)",
    "      --dump                 Print the listing of every script",
    "      --eval <TYPE>          Evaluate a signal of this type",
    "  -v, --verbose              Log more detail",
    "      --state <ASPECT>       Initial STATE",
    "      --draw-state <N>       Initial DRAW_STATE",
    "      --enabled              Signal is enabled by the dispatcher",
    "      --block-state <BLOCK>  Block state ahead of the signal",
    "      --route-set            Route ahead is set",
    "      --next <FN=ASPECT>     Aspect of the next signal (repeatable)",
    "      --this <FN=ASPECT>     Aspect of the signal's own head (repeatable)",
    "      --opp <FN=ASPECT>      Aspect of the next opposing signal (repeatable)",
    "      --feature <FEATURE>    Feature of the signal (repeatable)",
    "      --draw <ASPECT=N>      Draw state of an aspect (repeatable)",
    "  -h, --help                 Print help",
    "  -V, --version              Print version"]

/-- Runs the program. `userConfig` is the path of the user's own configuration. -/
def runProgram {m : Type → Type} [Monad m] (storage : Storage m) (userConfig : Option Text)
    (arguments : List Text) : m Completion :=
  match Arguments.parse arguments with
  | .ok arguments => runArguments storage userConfig arguments
  | .error .help => pure ⟨0, usage, ""⟩
  | .error .version => pure ⟨0, "sigscr 0.1.0\n", ""⟩
  | .error error => pure ⟨2, "", "error: " ++ error.message ++ "\n"⟩

end SignalScript
