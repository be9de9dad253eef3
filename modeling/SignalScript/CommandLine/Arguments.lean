import SignalScript.CommandLine.Binding

/-!
# Command line arguments

Options begin with two hyphens and a name, or with one hyphen and a letter; letters of options
without value can be run together. A value follows its option as the next argument, behind `=`,
or right behind the letter. Everything else is a file, and so is everything behind `--`.

An option that takes a value waits for it: the value is looked at only when the next option or
file comes up, or at the end. So an unknown option is reported before anything that is wrong with
the option in front of it.

## Main definitions

* `Flag`, `Setting`, `OptionName` — options without and with a value
* `Arguments` — everything said on the command line
* `ArgumentError` — the first thing that is wrong with it
* `Arguments.parse` — reads a command line
-/

namespace SignalScript

/-- An option without value. -/
inductive Flag
  | dump
  | verbose
  | enabled
  | routeSet
  | help
  | version
  deriving DecidableEq, Repr

/-- An option with a value. -/
inductive Setting
  | config
  | routeDir
  | signalType
  | eval
  | state
  | drawState
  | blockState
  | next
  | own
  | opposite
  | feature
  | draw
  deriving DecidableEq, Repr

/-- An option. -/
inductive OptionName
  | flag (flag : Flag)
  | setting (setting : Setting)
  deriving DecidableEq, Repr

namespace OptionName

/-- The long names of options. -/
def longNames : List (String × OptionName) :=
  [("config", .setting .config), ("route", .setting .routeDir), ("type", .setting .signalType),
    ("dump", .flag .dump), ("eval", .setting .eval), ("verbose", .flag .verbose),
    ("state", .setting .state), ("draw-state", .setting .drawState), ("enabled", .flag .enabled),
    ("block-state", .setting .blockState), ("route-set", .flag .routeSet),
    ("next", .setting .next), ("this", .setting .own), ("opp", .setting .opposite),
    ("feature", .setting .feature), ("draw", .setting .draw), ("help", .flag .help),
    ("version", .flag .version)]

/-- The letters of options. -/
def letters : List (Char × OptionName) :=
  [('c', .setting .config), ('r', .setting .routeDir), ('t', .setting .signalType),
    ('v', .flag .verbose), ('h', .flag .help), ('V', .flag .version)]

/-- The option with a long name. -/
def ofLong? (name : Text) : Option OptionName :=
  (longNames.find? fun (long, _) => long.toList = name).map Prod.snd

/-- The option with a letter. -/
def ofLetter? (letter : Char) : Option OptionName := letters.lookup letter

end OptionName

/-- The first thing that is wrong with a command line, or a request that ends its reading. -/
inductive ArgumentError
  | unknownOption
  /-- A value is missing, or a path is empty. -/
  | missingValue
  /-- An option that may be given once is given again. -/
  | repeated
  /-- A value is given to an option that takes none. -/
  | surplusValue
  | badValue (error : BindingError)
  | help
  | version
  deriving DecidableEq, Repr

/-- The wording of an error. -/
def ArgumentError.message : ArgumentError → String
  | .unknownOption => "unknown option"
  | .missingValue => "an option lacks its value"
  | .repeated => "an option is given twice"
  | .surplusValue => "an option takes no value"
  | .badValue error => error.message
  | .help => "help requested"
  | .version => "version requested"

/-- Everything said on the command line. -/
structure Arguments where
  config : Option Text
  routeDir : Option Text
  signalTypes : List Text
  dump : Bool
  eval : Option Text
  verbose : Bool
  bindings : Bindings
  files : List Text
  deriving DecidableEq, Repr

namespace Arguments

/-- Nothing is said. -/
def empty : Arguments := ⟨none, none, [], false, none, false, Bindings.empty, []⟩

/-- A flag after it is given: it must not be given twice. -/
def raise (flag : Bool) : Except ArgumentError Bool :=
  if flag then .error .repeated else .ok true

/-- A setting after it is given a value: it must not be given twice. -/
def once {α : Type} (current : Option α) (value : Except ArgumentError α) :
    Except ArgumentError (Option α) :=
  match current with
  | some _ => .error .repeated
  | none => value.map some

/-- A path must not be empty. -/
def path (text : Text) : Except ArgumentError Text :=
  if text.isEmpty then .error .missingValue else .ok text

/-- A value of a binding. -/
def bound {α : Type} (value : Except BindingError α) : Except ArgumentError α :=
  value.mapError .badValue

/-- The arguments after a flag is given. -/
def addFlag (arguments : Arguments) (flag : Flag) : Except ArgumentError Arguments := do
  let bindings := arguments.bindings
  match flag with
  | .dump => pure { arguments with dump := ← raise arguments.dump }
  | .verbose => pure { arguments with verbose := ← raise arguments.verbose }
  | .enabled =>
    pure { arguments with bindings := { bindings with enabled := ← raise bindings.enabled } }
  | .routeSet =>
    pure { arguments with bindings := { bindings with routeSet := ← raise bindings.routeSet } }
  | .help => throw .help
  | .version => throw .version

/-- The bindings after a setting is given a value; settings that bind nothing change nothing. -/
def bind (bindings : Bindings) (setting : Setting) (text : Text) :
    Except ArgumentError Bindings := do
  match setting with
  | .state =>
    pure { bindings with
      state := ← once bindings.state (bound (Family.aspect.parseValue text)) }
  | .drawState =>
    pure { bindings with drawState := ← once bindings.drawState (bound (parseDrawState text)) }
  | .blockState =>
    pure { bindings with
      blockState := ← once bindings.blockState (bound (Family.block.parseValue text)) }
  | .next =>
    pure { bindings with next := bindings.next ++ [← bound (parseFunctionAspect text)] }
  | .own =>
    pure { bindings with own := bindings.own ++ [← bound (parseFunctionAspect text)] }
  | .opposite =>
    pure { bindings with opposite := bindings.opposite ++ [← bound (parseFunctionAspect text)] }
  | .feature =>
    pure { bindings with features := bindings.features ++ [← bound (parseFeature text)] }
  | .draw =>
    pure { bindings with
      drawStates := bindings.drawStates ++ [← bound (parseAspectDrawState text)] }
  | .config | .routeDir | .signalType | .eval => pure bindings

/-- The arguments after a setting is given a value. -/
def addSetting (arguments : Arguments) (setting : Setting) (text : Text) :
    Except ArgumentError Arguments := do
  match setting with
  | .config => pure { arguments with config := ← once arguments.config (path text) }
  | .routeDir => pure { arguments with routeDir := ← once arguments.routeDir (path text) }
  | .signalType => pure { arguments with signalTypes := arguments.signalTypes ++ [text] }
  | .eval => pure { arguments with eval := ← once arguments.eval (.ok text) }
  | _ => pure { arguments with bindings := ← bind arguments.bindings setting text }

/-- The arguments after files are named. -/
def addFiles (arguments : Arguments) (files : List Text) : Except ArgumentError Arguments := do
  let files ← files.mapM path
  pure { arguments with files := arguments.files ++ files }

end Arguments

/-- What has been read but not looked at. -/
inductive Pending
  | nothing
  /-- A setting that waits for its value. -/
  | awaiting (setting : Setting)
  | value (setting : Setting) (text : Text)
  | files (paths : List Text)
  deriving DecidableEq, Repr

/-- How far a command line has been read. -/
structure Progress where
  arguments : Arguments
  pending : Pending
  deriving DecidableEq, Repr

namespace Progress

/-- Looks at what is pending. -/
def settle (progress : Progress) : Except ArgumentError Arguments :=
  match progress.pending with
  | .nothing => .ok progress.arguments
  | .awaiting _ => .error .missingValue
  | .value setting text => progress.arguments.addSetting setting text
  | .files paths => progress.arguments.addFiles paths

/-- Reads a flag. -/
def flag (progress : Progress) (flag : Flag) : Except ArgumentError Progress := do
  let arguments ← progress.settle
  pure ⟨← arguments.addFlag flag, .nothing⟩

/-- Reads a setting, with its value if it is attached. -/
def setting (progress : Progress) (setting : Setting) (value : Option Text) :
    Except ArgumentError Progress := do
  let arguments ← progress.settle
  match value with
  | some text => pure ⟨← arguments.addSetting setting text, .nothing⟩
  | none => pure ⟨arguments, .awaiting setting⟩

/-- Reads a file. -/
def file (progress : Progress) (path : Text) : Except ArgumentError Progress :=
  match progress.pending with
  | .files paths => .ok { progress with pending := .files (paths ++ [path]) }
  | _ => do
    let arguments ← progress.settle
    pure ⟨arguments, .files [path]⟩

/-- Reads an argument that is no option: a value if one is awaited, a file otherwise. -/
def plain (progress : Progress) (text : Text) : Except ArgumentError Progress :=
  match progress.pending with
  | .awaiting setting => .ok { progress with pending := .value setting text }
  | _ => progress.file text

/-- Reads an argument behind its two hyphens. -/
def long (progress : Progress) (body : Text) : Except ArgumentError Progress :=
  let (name, value) :=
    match Text.cut? '=' body with
    | some (name, value) => (name, some value)
    | none => (body, none)
  match OptionName.ofLong? name, value with
  | none, _ => .error .unknownOption
  | some (.flag _), some _ => .error .surplusValue
  | some (.flag flag), none => progress.flag flag
  | some (.setting setting), value => progress.setting setting value

/-- Reads the letters of an argument behind its hyphen. -/
def letters (progress : Progress) : Text → Except ArgumentError Progress
  | [] => .ok progress
  | letter :: rest =>
    match OptionName.ofLetter? letter with
    | none => .error .unknownOption
    | some (.flag flag) => do
      let progress ← progress.flag flag
      progress.letters rest
    | some (.setting setting) =>
      -- The rest of the argument is the value, with or without `=` in front of it.
      match rest with
      | [] => progress.setting setting none
      | _ => progress.setting setting (some (Text.dropLeading '=' rest))

/-- Reads arguments in order; behind `--` all of them are files. -/
def read (progress : Progress) (onlyFiles : Bool) : List Text → Except ArgumentError Arguments
  | [] => progress.settle
  | argument :: rest =>
    if onlyFiles then do
      let progress ← progress.file argument
      progress.read true rest
    else
      match argument with
      | ['-', '-'] => progress.read true rest
      | '-' :: '-' :: body => do
        let progress ← progress.long body
        progress.read false rest
      | '-' :: letter :: more => do
        let progress ← progress.letters (letter :: more)
        progress.read false rest
      -- A hyphen alone is no option.
      | text => do
        let progress ← progress.plain text
        progress.read false rest

end Progress

/-- Reads a command line, without the name of the program. -/
def Arguments.parse (arguments : List Text) : Except ArgumentError Arguments :=
  Progress.read ⟨Arguments.empty, .nothing⟩ false arguments

end SignalScript
