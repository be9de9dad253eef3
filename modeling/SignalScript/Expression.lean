import SignalScript.Vocabulary

/-!
# Expressions

An expression is a chain of terms that are combined from left to right, without precedence. A
compiled chain is flat: a bracketed group opens a level of its own, the term that stands for the
group carries the number of that level, and the terms of the group follow, marked with it. Level
zero is the chain itself.

## Main definitions

* `Operand`, `Call`, `Atom` — what yields a value
* `Operator` — how a term joins the running value
* `Term`, `Chain` — a flat chain with levels
* `Assignment` — a chain and the place its value goes
-/

namespace SignalScript

/-- A value that needs no question to the surroundings. -/
inductive Operand
  | constant (value : Int32)
  /-- The local variable in a slot. -/
  | slot (index : Nat)
  | external (v : ExternalVariable)
  /-- A named constant. -/
  | named (family : Family) (value : Int32)
  deriving DecidableEq, Repr

/-- A function with its arguments. -/
structure Call where
  function : Function
  arguments : List Operand
  deriving DecidableEq, Repr

/-- What yields a single value. -/
inductive Atom
  | operand (operand : Operand)
  | call (call : Call)
  deriving DecidableEq, Repr

/-- How a term joins the running value. -/
inductive Operator
  | minus
  | plus
  | times
  | divide
  | modulo
  deriving DecidableEq, Repr

namespace Operator

/-- The operator that a character spells. -/
def ofChar? : Char → Option Operator
  | '-' => some .minus
  | '+' => some .plus
  | '*' => some .times
  | '/' => some .divide
  | '%' => some .modulo
  | _ => none

/-- The character that spells an operator. -/
def symbol : Operator → Char
  | .minus => '-'
  | .plus => '+'
  | .times => '*'
  | .divide => '/'
  | .modulo => '%'

/-- The character spells an operator. -/
def isSymbol (c : Char) : Bool := (ofChar? c).isSome

@[simp] theorem ofChar?_symbol (op : Operator) : ofChar? op.symbol = some op := by
  cases op <;> rfl

end Operator

/-- What a term of a chain contributes. -/
inductive Factor
  | atom (atom : Atom)
  /-- Ends the script when it is reached. -/
  | ret
  /-- The value of the chain at a level. -/
  | group (level : Nat)
  deriving DecidableEq, Repr

/-- A term of a flat chain. -/
structure Term where
  /-- Zero counts as one, and all else as zero. -/
  negated : Bool
  /-- How the term joins the terms before it; a first term may have none. -/
  operator : Option Operator
  /-- The level that the term belongs to. -/
  level : Nat
  factor : Factor
  deriving DecidableEq, Repr

/-- The terms of a chain and of all its groups, in the order of the text. -/
abbrev Chain := List Term

/-- Where the value of a chain goes. -/
inductive Target
  | external (v : ExternalVariable)
  /-- The local variable in a slot. -/
  | slot (index : Nat)
  /-- Nowhere: the chain is evaluated for its calls. -/
  | discard
  deriving DecidableEq, Repr

/-- A chain and the place its value goes. -/
structure Assignment where
  target : Target
  chain : Chain
  /-- The line the statement starts on. -/
  line : Nat
  deriving DecidableEq, Repr

end SignalScript
