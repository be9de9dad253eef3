import SignalScript.Text.Basic

/-!
# Vocabulary

All that a script can name besides its own variables: four values owned by the signal, the
functions that ask about its surroundings, and four families of named constants. Names are
written in capitals.

## Main definitions

* `ExternalVariable`, `Function` — with `name` and the look-up `named?`
* `Family` — a family of constants, with its `stem` and its `members`
* `Family.resolve?` — the constant that a name stands for

## Main results

* `ExternalVariable.named?_name`, `Function.named?_name` — look-up inverts naming
-/

namespace SignalScript

/-- A value owned by the signal. -/
inductive ExternalVariable
  | state
  | drawState
  | enabled
  | blockState
  deriving DecidableEq, Repr

namespace ExternalVariable

/-- Every external variable. -/
def all : List ExternalVariable := [.state, .drawState, .enabled, .blockState]

/-- The name used in scripts. -/
def name : ExternalVariable → String
  | .state => "STATE"
  | .drawState => "DRAW_STATE"
  | .enabled => "ENABLED"
  | .blockState => "BLOCK_STATE"

/-- The variable of a given name. -/
def named? (text : Text) : Option ExternalVariable := all.find? fun v => v.name.toList = text

/-- Scripts may set the aspect and the draw state, and nothing else. -/
def isWritable : ExternalVariable → Bool
  | .state | .drawState => true
  | .enabled | .blockState => false

theorem named?_name (v : ExternalVariable) : named? v.name.toList = some v := by
  cases v <;> rfl

end ExternalVariable

/-- Of several signals, the one whose aspect counts. -/
inductive Restriction
  | least
  | most
  deriving DecidableEq, Repr

/-- A question that a script can ask about the surroundings of its signal. -/
inductive Function
  | blockState
  | routeSet
  | nextSignal (which : Restriction)
  | thisSignal (which : Restriction)
  | oppositeSignal (which : Restriction)
  | signalRun
  | feature
  | defaultDrawState
  | debugHeader
  | debugOut
  deriving DecidableEq, Repr

namespace Function

/-- Every function. -/
def all : List Function :=
  [.blockState, .routeSet, .nextSignal .least, .nextSignal .most, .thisSignal .least,
    .thisSignal .most, .oppositeSignal .least, .oppositeSignal .most, .signalRun, .feature,
    .defaultDrawState, .debugHeader, .debugOut]

/-- The name used in scripts. -/
def name : Function → String
  | .blockState => "BLOCK_STATE"
  | .routeSet => "ROUTE_SET"
  | .nextSignal .least => "NEXT_SIG_LR"
  | .nextSignal .most => "NEXT_SIG_MR"
  | .thisSignal .least => "THIS_SIG_LR"
  | .thisSignal .most => "THIS_SIG_MR"
  | .oppositeSignal .least => "OPP_SIG_LR"
  | .oppositeSignal .most => "OPP_SIG_MR"
  | .signalRun => "DIST_MULTI_SIG_MR"
  | .feature => "SIG_FEATURE"
  | .defaultDrawState => "DEF_DRAW_STATE"
  | .debugHeader => "DEBUG_HEADER"
  | .debugOut => "DEBUG_OUT"

/-- The function of a given name. -/
def named? (text : Text) : Option Function := all.find? fun f => f.name.toList = text

/-- The number of arguments. -/
def arity : Function → Nat
  | .blockState | .routeSet | .debugHeader | .debugOut => 0
  | .signalRun => 2
  | .nextSignal _ | .thisSignal _ | .oppositeSignal _ | .feature | .defaultDrawState => 1

theorem named?_name (f : Function) : named? f.name.toList = some f := by
  rcases f with _ | _ | w | w | w | _ | _ | _ | _ | _ <;> (try cases w) <;> rfl

end Function

/-- A family of named constants. -/
inductive Family
  | block
  | aspect
  | signalFunction
  | feature
  deriving DecidableEq, Repr

namespace Family

/-- Every family, in the order in which names are looked up. -/
def all : List Family := [.block, .aspect, .signalFunction, .feature]

/-- How the names of the family begin. -/
def stem : Family → String
  | .block => "BLOCK_"
  | .aspect => "SIGASP_"
  | .signalFunction => "SIGFN_"
  | .feature => "SIGFEAT_"

/-- The names of the family behind their stem; the place in the list is the value. -/
def members : Family → List String
  | .block => ["CLEAR", "OCCUPIED", "JN_OBSTRUCTED"]
  | .aspect =>
    ["STOP", "STOP_AND_PROCEED", "RESTRICTING", "APPROACH_1", "APPROACH_2", "APPROACH_3",
      "CLEAR_1", "CLEAR_2", "UNKNOWN"]
  | .signalFunction => ["NORMAL", "DISTANCE", "REPEATER", "SHUNTING", "INFO", "UNKNOWN"]
  | .feature =>
    ["DECOR", "SIGNAL_HEAD", "DUMMY1", "DUMMY2", "NUMBER_PLATE", "GRADIENT_PLATE", "USER1",
      "USER2", "USER3", "USER4"]

/-- The value of a member name. -/
def value? (family : Family) (member : Text) : Option Nat :=
  family.members.findIdx? fun name => name.toList = member

/-- The family and value that a full name stands for. -/
def resolve? (name : Text) : Option (Family × Int32) :=
  all.findSome? fun family =>
    ((Text.dropStem? family.stem.toList name).bind family.value?).map fun n =>
      (family, Int32.ofNat n)

/-- The name of a value behind the stem. -/
def memberName? (family : Family) (value : Int32) : Option String :=
  if value < 0 then none else family.members[value.toInt.toNat]?

end Family

/-- The aspect that stops trains: the most restrictive one. -/
def stopAspect : Int32 := 0

/-- The least restrictive aspect. -/
def clearAspect : Int32 := 7

/-- The state of a block that no train occupies. -/
def clearBlock : Int32 := 0

end SignalScript
