import SignalScript.Expression

/-!
# Conditions

A condition is a flat list of tests and groups with joins between them, read strictly from left
to right: neither `AND` nor `OR` binds closer. A negation stands in front of what it inverts.

## Main definitions

* `Comparator`, `Test` — a value tested for truth, or two values compared
* `Join` — `AND` or `OR`
* `ConditionItem`, `Condition` — the list, with groups nested in it
-/

namespace SignalScript

/-- How two values are compared. -/
inductive Comparator
  | greater
  | greaterEqual
  | less
  | lessEqual
  | equal
  | unequal
  deriving DecidableEq, Repr

namespace Comparator

/-- The spelling of a comparator. -/
def symbol : Comparator → String
  | .greater => ">"
  | .greaterEqual => ">="
  | .less => "<"
  | .lessEqual => "<="
  | .equal => "=="
  | .unequal => "!="

/-- Whether two values stand in the relation. -/
def holds (left right : Int32) : Comparator → Bool
  | .greater => right < left
  | .greaterEqual => right ≤ left
  | .less => left < right
  | .lessEqual => left ≤ right
  | .equal => left = right
  | .unequal => left ≠ right

end Comparator

/-- One side of a test. -/
structure Side where
  /-- A negation is written in front. -/
  negated : Bool
  atom : Atom
  deriving DecidableEq, Repr

/-- A value tested for truth, or two values compared. A comparator and a right side come together:
no test has one without the other. The negation of a side changes the outcome only where nothing is
compared. -/
inductive Test
  | single (side : Side)
  | compare (left : Side) (comparator : Comparator) (right : Side)
  deriving DecidableEq, Repr

/-- How a test joins the tests before it. -/
inductive Join
  | and
  | or
  deriving DecidableEq, Repr

/-- An element of a condition. -/
inductive ConditionItem
  | test (test : Test)
  | join (join : Join)
  /-- Inverts the next test or group. -/
  | negation
  | group (items : List ConditionItem)
  deriving Repr

/-- The elements of a condition, in order. -/
abbrev Condition := List ConditionItem

end SignalScript
