import SignalScript.Condition.Lifting
import SignalScript.Condition.Test

/-!
# Reading conditions

The condition of an `IF` is the text between its first opening and its last closing bracket. It
is split at its separators once its compounds are lifted out; every part is a test, or a compound
and so a condition of its own, with an optional negation in front.

## Main definitions

* `stripBrackets` — takes off brackets around a whole text
* `Condition.readList` — the condition that a text without outer brackets spells
* `Condition.read` — the condition of an `IF`
-/

namespace SignalScript

/-- Takes off every pair of brackets that encloses the whole text. -/
def stripBrackets (text : Text) : Text :=
  match _h : Text.enclosed? text with
  | some (inner, []) => stripBrackets (Text.trim inner)
  | _ => text
termination_by text.length
decreasing_by
  have := Text.enclosed?_length _h
  have := Text.length_trim_le inner
  simp only [List.length_nil] at *
  omega

namespace Condition

/-- A part of a condition, when `group` reads the compound of a given number. -/
def readPart (locals : List Text) (group : Nat → Option (Checked (List ConditionItem)))
    (part : Text) : Checked Condition := do
  let part := Text.trim part
  if part.isEmpty then
    note .emptyCondition
    pure []
  else
    let (negated, rest) := Text.negation part
    -- The negation of a part is an item of its own, also in front of a compound.
    let front := if negated then [ConditionItem.negation] else []
    match (compoundNumber? rest).bind group with
    | some compound => do
      let items ← compound
      pure (front ++ [.group items])
    | none => do
      let test ← Test.read locals (stripBrackets rest)
      pure (front ++ [.test test])

/-- Parts with the join in front of each. -/
def readLater (readPart : Text → Checked Condition) : List (Join × Text) → Checked Condition
  | [] => pure []
  | (join, part) :: later => do
    let items ← readPart part
    let more ← readLater readPart later
    pure (.join join :: items ++ more)

/-- The condition that a text without outer brackets spells. -/
def readList (locals : List Text) (text : Text) : Checked Condition := do
  let lifted := liftCompounds text
  let parts := splitSeparators lifted.text
  let group := fun number =>
    if h : number < lifted.compounds.length then some (readList locals lifted.compounds[number])
    else none
  let first ← readPart locals group parts.first
  let later ← readLater (readPart locals group) parts.later
  pure (first ++ later)
termination_by text.length
decreasing_by exact length_of_mem_liftCompounds (List.getElem_mem h)

/-- The condition of a line that begins with `IF` or `ELSEIF`. -/
def read (locals : List Text) (head : Text) : Checked Condition :=
  match Text.cut? '(' head, Text.cutLast? ')' head with
  | some (before, _), some untilLast =>
    if untilLast.length ≤ before.length then do
      note (.malformedCondition head)
      pure []
    else readList locals (Text.trim (untilLast.drop (before.length + 1)))
  | _, _ => do
    note (.missingCondition head)
    pure []

end Condition

end SignalScript
