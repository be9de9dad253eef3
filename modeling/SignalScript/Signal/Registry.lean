import SignalScript.Signal.Types
import SignalScript.Script.Compilation
import SignalScript.Run.Execution

/-!
# The scripts of a route

Each signal type has at most one script: the first that is registered for it. Scripts for unknown
types and further scripts for a type are refused and reported, and so are files that cannot be
read; nothing of this keeps the other scripts from being registered. A signal whose type has no
script follows a built-in rule.

## Main definitions

* `Registry` — the scripts by type
* `Registry.typeFor` — the type that a script is taken for, or the reason why it is refused
* `Registry.offer`, `Registry.register` — the registry after a script is offered
* `ScriptFile`, `Registry.load` — registers the scripts of several files
* `Registry.update` — brings the state of a signal up to date
-/

namespace SignalScript

/-- The scripts of a route, by the keys of their types. -/
structure Registry where
  scripts : SortedMap Text Script

namespace Registry

/-- No scripts. -/
def empty : Registry := ⟨SortedMap.empty⟩

/-- The script of a type. -/
def get? (registry : Registry) (type : Text) : Option Script := registry.scripts.get? (typeKey type)

/-- The type has a script. -/
def contains (registry : Registry) (type : Text) : Bool := (registry.get? type).isSome

/-- The number of scripts. -/
def size (registry : Registry) : Nat := registry.scripts.size

/-- The scripts in the order of the keys of their types. -/
def toList (registry : Registry) : List Script := registry.scripts.values

/-- The spelling of the type that a script is taken for, or the reason why it is refused. -/
def typeFor (registry : Registry) (types : SignalTypes) (script : Script) : Except Cause Text :=
  match types.resolve? script.name with
  | none => .error (.unknownType (Text.trim script.name))
  | some canonical =>
    if registry.contains canonical then .error (.duplicateScript canonical) else .ok canonical

/-- Why a script is not registered, if it is not. -/
def refusal? (registry : Registry) (types : SignalTypes) (script : Script) : Option Cause :=
  match registry.typeFor types script with
  | .ok _ => none
  | .error cause => some cause

/-- A script is offered: the registry afterwards, and whether the script was taken. A refusal is
reported. -/
def offer (registry : Registry) (types : SignalTypes) (file : String) (script : Script) :
    Noted Diagnostic (Registry × Bool) :=
  match registry.typeFor types script with
  | .ok canonical => pure (⟨registry.scripts.insert (typeKey canonical) script⟩, true)
  | .error cause => do
    note ⟨file, script.line, script.name, cause⟩
    pure (registry, false)

/-- The registry after a script is offered, whether it was taken or not. -/
def register (registry : Registry) (types : SignalTypes) (file : String) (script : Script) :
    Noted Diagnostic Registry := do
  let (registry, _) ← registry.offer types file script
  pure registry

/-- The registry after several scripts are offered in order. -/
def registerAll (registry : Registry) (types : SignalTypes) (file : String)
    (scripts : List Script) : Noted Diagnostic Registry :=
  scripts.foldlM (fun registry script => registry.register types file script) registry

/-- The registry after the scripts of a file with the given name and bytes are offered. -/
def loadSource (registry : Registry) (types : SignalTypes) (file : String)
    (bytes : List UInt8) : Noted Diagnostic Registry := do
  let scripts ← compile file bytes
  registry.registerAll types file scripts

end Registry

/-- A file as it was found: its bytes, or the reason why it cannot be read. -/
structure ScriptFile where
  path : String
  content : Except ReadError (List UInt8)

namespace Registry

/-- The registry after the scripts of a file are offered; a file that cannot be read is
reported. -/
def loadFile (registry : Registry) (types : SignalTypes) (file : ScriptFile) :
    Noted Diagnostic Registry :=
  match file.content with
  | .ok bytes => registry.loadSource types file.path bytes
  | .error error => do
    note ⟨file.path, 0, [], .unreadable file.path error⟩
    pure registry

/-- The scripts of several files, offered in order. -/
def load (types : SignalTypes) (files : List ScriptFile) : Noted Diagnostic Registry :=
  files.foldlM (fun registry file => registry.loadFile types file) empty

end Registry

/-- How a signal was brought up to date. -/
inductive Update
  /-- The script of its type ran. -/
  | script (flow : Flow)
  /-- Its type has no script. -/
  | fallback
  deriving DecidableEq, Repr

/-- A signal after an update. -/
structure Updated (σ : Type) where
  how : Update
  host : σ
  /-- The accesses to the signal, oldest first. -/
  log : List Access
  deriving DecidableEq, Repr

variable {σ : Type} [SignalHost σ]

/-- The rule for signals without a script: a clear block shows the least restrictive aspect, and
any other the most restrictive. -/
def blockRule (host : σ) : Updated σ :=
  let aspect := if SignalHost.blockState host = clearBlock then clearAspect else stopAspect
  ⟨.fallback, SignalHost.setState host aspect, [.query .blockState, .setState aspect]⟩

/-- Brings the state of a signal of a type up to date. -/
def Registry.update (registry : Registry) (type : Text) (host : σ) : Updated σ :=
  match registry.get? type with
  | some script =>
    let outcome := script.run host
    ⟨.script outcome.flow, outcome.machine.host, outcome.machine.log⟩
  | none => blockRule host

end SignalScript
