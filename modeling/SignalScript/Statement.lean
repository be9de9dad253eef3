import SignalScript.Condition

/-!
# Statements and scripts

The body of a script is a list of statements: assignments, and chains of `IF` with any number of
`ELSEIF` arms and an optional `ELSE`. A compiled script has, besides its body, the name of the
signal type it is written for and the names of its local variables.

## Main definitions

* `Statement`, `Arm`, `Alternative` — the tree; an arm is a condition, its body, and what is tried
  when the condition does not hold
* `Script` — a compiled script
-/

namespace SignalScript

mutual

/-- An element of the body of a script. -/
inductive Statement
  | assign (assignment : Assignment)
  /-- A chain of arms, of which at most one runs. -/
  | choose (first : Arm)

/-- A condition with the body that runs when it holds. -/
inductive Arm
  | mk (condition : Condition) (body : List Statement) (otherwise : Alternative)

/-- What follows an arm. -/
inductive Alternative
  /-- Nothing more. -/
  | done
  /-- An `ELSE` with its body. -/
  | always (body : List Statement)
  /-- A further arm. -/
  | arm (next : Arm)

end

/-- A compiled script. -/
structure Script where
  /-- The signal type, as written behind `SCRIPT`. -/
  name : Text
  /-- The line of the marker. -/
  line : Nat
  /-- The names of the local variables; the place in the list is the slot. -/
  locals : List Text
  body : List Statement

end SignalScript
