import SignalScript.Expression
import SignalScript.Run.Host

/-!
# Values of expressions

Expressions are evaluated in 32 bits. Sums, differences and products wrap around; a quotient or
remainder that does not exist in 32 bits is zero. A chain is folded from left to right, starting
at zero, and its groups are evaluated where they stand.

## Main definitions

* `Operator.apply` — the arithmetic of one operator
* `Atom.value` — the value of an operand or a call
* `Chain.value` — the value of a level of a chain, or nothing if a `RETURN` is reached
-/

namespace SignalScript

/-- The variables of a run and the signal it is for. -/
structure Surroundings (σ : Type) where
  host : σ
  locals : List Int32

/-- Zero becomes one, and all else zero. -/
def flipped (value : Int32) : Int32 := if value = 0 then 1 else 0

/-- The quotient of two numbers exists in 32 bits. -/
def divides (total value : Int32) : Bool :=
  value ≠ 0 && !(total = Int32.minValue && value = -1)

/-- The value of a chain after one more term. -/
def Operator.apply (total value : Int32) : Operator → Int32
  | .plus => total + value
  | .minus => total - value
  | .times => total * value
  | .divide => if divides total value then total / value else 0
  | .modulo => if divides total value then total % value else 0

/-- The running value after a term; a term without operator replaces it. -/
def combined (operator : Option Operator) (total value : Int32) : Int32 :=
  match operator with
  | none => value
  | some op => op.apply total value

variable {σ : Type} [SignalHost σ]

/-- The question that reads an external variable. -/
def ExternalVariable.query : ExternalVariable → Query
  | .state => .state
  | .drawState => .drawState
  | .enabled => .enabled
  | .blockState => .blockState

/-- The question that a function asks, with its first two arguments; debug output asks none. -/
def Function.query? (first second : Int32) : Function → Option Query
  | .blockState => some .blockState
  | .routeSet => some .routeSet
  | .nextSignal which => some (.nextSignal which first)
  | .thisSignal which => some (.thisSignal which first)
  | .oppositeSignal which => some (.oppositeSignal which first)
  | .signalRun => some (.signalRun first second)
  | .feature => some (.feature first)
  | .defaultDrawState => some (.defaultDrawState first)
  | .debugHeader | .debugOut => none

/-- The value of an operand. -/
def Operand.value (around : Surroundings σ) : Operand → Asked Int32
  | .constant value => pure value
  | .slot index => pure (around.locals[index]?.getD 0)
  | .external v => ask around.host v.query
  | .named _ value => pure value

/-- The value of the argument in a place; a missing argument is zero. -/
def Call.argument (around : Surroundings σ) (call : Call) (place : Nat) : Asked Int32 :=
  match call.arguments[place]? with
  | some operand => operand.value around
  | none => pure 0

/-- The value of a call. Two arguments are evaluated, whether the function uses them or not. -/
def Call.value (around : Surroundings σ) (call : Call) : Asked Int32 := do
  let first ← call.argument around 0
  let second ← call.argument around 1
  match call.function.query? first second with
  | some query => ask around.host query
  | none => pure 0

/-- The value of an atom. -/
def Atom.value (around : Surroundings σ) : Atom → Asked Int32
  | .operand o => o.value around
  | .call c => c.value around

/-- Folds terms from left to right, when `factor` evaluates what a term contributes; nothing if a
factor has no value. -/
def foldTerms (factor : Factor → Asked (Option Int32)) (total : Int32) :
    List Term → Asked (Option Int32)
  | [] => pure (some total)
  | term :: rest => do
    match ← factor term.factor with
    | none => pure none
    | some value =>
      let value := if term.negated then flipped value else value
      foldTerms factor (combined term.operator total value) rest

/-- The value of a level of a chain, or nothing if a `RETURN` is reached. A group is evaluated where
it stands, as the level of its number. The guard on that number makes the recursion end, and no
chain that was read meets it: by `Chain.WellFormed.descends` its groups have numbers above their own
level and no greater than the number of its terms. -/
def Chain.value (around : Surroundings σ) (chain : Chain) (level : Nat) : Asked (Option Int32) :=
  foldTerms
    (fun factor =>
      match factor with
      | .atom atom => do
        let value ← atom.value around
        pure (some value)
      | .ret => pure none
      | .group id =>
        if level < id ∧ id ≤ chain.length then Chain.value around chain id else pure (some 0))
    0 (chain.filter fun term => term.level = level)
termination_by chain.length - level

end SignalScript
