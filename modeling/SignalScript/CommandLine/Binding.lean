import SignalScript.Diagnostic
import SignalScript.Text.LetterCase
import SignalScript.Signal.Fixed

/-!
# Bindings on the command line

The surroundings of a signal can be given on the command line. A value of a family is a number or
a name, in any case, with or without the stem of the family. Bindings are collected in the order
in which they are given, and of several for one place the last one counts.

## Main definitions

* `BindingError` — why a text binds nothing, with its wording
* `Family.parseValue` — a value of a family
* `parseFunctionAspect`, `parseAspectDrawState`, `parseDrawState` — the other bindings
* `Bindings`, `Bindings.signal` — all bindings, and the signal they describe
-/

namespace SignalScript

/-- The two forms of a binding with two sides. -/
inductive PairForm
  | functionAspect
  | aspectDrawState
  deriving DecidableEq, Repr

/-- How a form is written. -/
def PairForm.pattern : PairForm → String
  | .functionAspect => "FN=ASPECT"
  | .aspectDrawState => "ASPECT=N"

/-- Why a text binds nothing. -/
inductive BindingError
  | unknownName (family : Family) (name : Text)
  | outOfRange (family : Family) (value : Int32)
  | notAPair (form : PairForm) (text : Text)
  /-- The unknown signal function has no place in a table. -/
  | unboundFunction
  | badDrawState (text : Text) (error : Decimal.Error)
  | badNumber (error : Decimal.Error)
  | beyond32Bits (value : Int)
  deriving DecidableEq, Repr

/-- `text` between back quotes. -/
def backQuoted (text : Text) : String := "`" ++ text.string ++ "`"

/-- The wording of an error. -/
def BindingError.message : BindingError → String
  | .unknownName family name => "unknown " ++ family.stem ++ "* name " ++ backQuoted name
  | .outOfRange family value =>
    (Decimal.write value.toInt).string ++ " is out of range for " ++ family.stem ++ "*"
  | .notAPair form text => "expected " ++ form.pattern ++ ", got " ++ backQuoted text
  | .unboundFunction => "SIGFN_UNKNOWN cannot be bound"
  | .badDrawState text error => "draw state " ++ backQuoted text ++ ": " ++ error.message
  | .badNumber error => error.message
  | .beyond32Bits value => (Decimal.write value).string ++ " is not in -2147483648..=2147483647"

/-- A name in capitals, with the stem of a family in front. -/
def Family.fullName (family : Family) (name : Text) : Text :=
  let capitals := Text.asciiUpper name
  if family.stem.toList.isPrefixOf capitals then capitals else family.stem.toList ++ capitals

/-- The value that a number or name without blanks around it stands for, in range or not. -/
def Family.namedValue (family : Family) (name : Text) : Except BindingError Int32 :=
  match Decimal.readInt32? name with
  | some value => .ok value
  | none =>
    match Family.resolve? (family.fullName name) with
    | some (found, value) => if found = family then .ok value else .error (.unknownName family name)
    | none => .error (.unknownName family name)

/-- The value of a family that a text stands for. -/
def Family.parseValue (family : Family) (text : Text) : Except BindingError Int32 := do
  let value ← family.namedValue (Text.trim text)
  if (family.memberName? value).isNone then throw (.outOfRange family value)
  pure value

/-- The signal function, with a place in the tables, that a text stands for. -/
def parseFunction (text : Text) : Except BindingError (Fin 5) := do
  let value ← Family.signalFunction.parseValue text
  if h : value.toInt.toNat < 5 then pure ⟨value.toInt.toNat, h⟩ else throw .unboundFunction

/-- The feature that a text stands for. -/
def parseFeature (text : Text) : Except BindingError (Fin 10) := do
  let value ← Family.feature.parseValue text
  if h : value.toInt.toNat < 10 then pure ⟨value.toInt.toNat, h⟩
  else throw (.outOfRange .feature value)

/-- A signal function and an aspect, with an equals sign between them. -/
def parseFunctionAspect (text : Text) : Except BindingError (Fin 5 × Int32) :=
  match Text.cut? '=' text with
  | none => .error (.notAPair .functionAspect text)
  | some (functionText, aspectText) => do
    let function ← parseFunction functionText
    let aspect ← Family.aspect.parseValue aspectText
    pure (function, aspect)

/-- An aspect and a draw state, with an equals sign between them. -/
def parseAspectDrawState (text : Text) : Except BindingError (Int32 × Int32) :=
  match Text.cut? '=' text with
  | none => .error (.notAPair .aspectDrawState text)
  | some (aspectText, drawText) => do
    let drawState ← (Decimal.readInt32 (Text.trim drawText)).mapError (.badDrawState drawText)
    let aspect ← Family.aspect.parseValue aspectText
    pure (aspect, drawState)

/-- A draw state: a number of 64 bits that fits in 32. -/
def parseDrawState (text : Text) : Except BindingError Int32 := do
  let value ←
    (Decimal.read (-9223372036854775808) 9223372036854775807 text).mapError .badNumber
  if value < -2147483648 ∨ 2147483647 < value then throw (.beyond32Bits value)
  pure (Int32.ofInt value)

/-- The surroundings given on the command line, each list in the order given. -/
structure Bindings where
  state : Option Int32
  drawState : Option Int32
  enabled : Bool
  blockState : Option Int32
  routeSet : Bool
  next : List (Fin 5 × Int32)
  own : List (Fin 5 × Int32)
  opposite : List (Fin 5 × Int32)
  features : List (Fin 10)
  drawStates : List (Int32 × Int32)
  deriving DecidableEq, Repr

namespace Bindings

/-- Nothing is given. -/
def empty : Bindings := ⟨none, none, false, none, false, [], [], [], [], []⟩

/-- A table after entries are set in order. -/
def fill {α β : Type} {n : Nat} (table : Vector α n) (wrap : β → α) (entries : List (Fin n × β)) :
    Vector α n :=
  entries.foldl (fun table (index, value) => table.set index (wrap value)) table

/-- The signal that the bindings describe. -/
def signal (bindings : Bindings) : FixedSignal where
  state := bindings.state.getD 0
  drawState := bindings.drawState.getD 0
  enabled := bindings.enabled
  blockState := bindings.blockState.getD 0
  routeSet := bindings.routeSet
  nextSignals := fill (Vector.replicate 5 0) id bindings.next
  thisSignals := fill (Vector.replicate 5 none) some bindings.own
  oppositeSignals := fill (Vector.replicate 5 0) id bindings.opposite
  features := fill (Vector.replicate 10 false) (fun _ => true) (bindings.features.map (·, ()))
  drawStates :=
    bindings.drawStates.foldl (fun map (aspect, drawState) => map.insert aspect drawState)
      SortedMap.empty

end Bindings

end SignalScript
