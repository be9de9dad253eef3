import SignalScript.Condition
import SignalScript.Run.Value

/-!
# Truth of conditions

A condition is folded strictly from left to right, so `A OR B AND C` is `(A OR B) AND C`. Every
test is evaluated, whatever came before. A join stays in force until the next one, a negation
inverts the next test or group only, and a condition without tests does not hold.

## Main definitions

* `Test.truth` — the outcome of a test
* `Fold` — how far a condition has been folded
* `Condition.truth` — whether a condition holds
-/

namespace SignalScript

variable {σ : Type} [SignalHost σ]

/-- The outcome of a test. A negation counts only in front of a value that is not compared. -/
def Test.truth (around : Surroundings σ) : Test → Asked Bool
  | .single side => do
    let value ← side.atom.value around
    pure (if side.negated then flipped value ≠ 0 else value ≠ 0)
  | .compare left comparator right => do
    let first ← left.atom.value around
    let second ← right.atom.value around
    pure (comparator.holds first second)

/-- How far a condition has been folded. -/
structure Fold where
  /-- The outcome so far. -/
  result : Bool
  /-- The last join, if there was one. -/
  join : Option Join
  /-- The next outcome is inverted. -/
  negated : Bool
  deriving DecidableEq, Repr

/-- The fold before the first element. -/
def Fold.start : Fold := ⟨false, none, false⟩

/-- The fold after one more outcome. -/
def Fold.add (fold : Fold) (outcome : Bool) : Fold :=
  let outcome := outcome != fold.negated
  { fold with
    result :=
      match fold.join with
      | none => outcome
      | some .and => fold.result && outcome
      | some .or => fold.result || outcome
    negated := false }

mutual

/-- The fold after one more element. -/
def ConditionItem.foldInto (around : Surroundings σ) (fold : Fold) : ConditionItem → Asked Fold
  | .negation => pure { fold with negated := true }
  | .join j => pure { fold with join := some j }
  | .test t => do
    let outcome ← t.truth around
    pure (fold.add outcome)
  | .group items => do
    let inner ← foldItems around Fold.start items
    pure (fold.add inner.result)

/-- The fold after further elements. -/
def foldItems (around : Surroundings σ) (fold : Fold) : List ConditionItem → Asked Fold
  | [] => pure fold
  | item :: rest => do
    let next ← item.foldInto around fold
    foldItems around next rest

end

/-- Whether a condition holds. -/
def Condition.truth (around : Surroundings σ) (condition : Condition) : Asked Bool := do
  let fold ← foldItems around Fold.start condition
  pure fold.result

end SignalScript
