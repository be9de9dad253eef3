import SignalScript.Condition
import SignalScript.Expression.Operand

/-!
# Reading tests

A test has at most one comparator, the first that its text contains. A single `=` is noted and
read as `==`. A side that is blank or cannot be resolved is noted and read as zero.

## Main definitions

* `FoundComparator`, `cutComparator?` — the first comparator of a text and the texts around it
* `Side.read` — one side of a test
* `Test.read` — the test that a text spells
-/

namespace SignalScript

/-- A comparator in a text. -/
structure FoundComparator where
  before : Text
  /-- Nothing for a single `=`. -/
  comparator : Option Comparator
  after : Text
  deriving DecidableEq, Repr

/-- The first comparator of a text. An exclamation mark counts only in front of `=`. -/
def cutComparator? : Text → Option FoundComparator
  | [] => none
  | '>' :: '=' :: rest => some ⟨[], some .greaterEqual, rest⟩
  | '>' :: rest => some ⟨[], some .greater, rest⟩
  | '<' :: '=' :: rest => some ⟨[], some .lessEqual, rest⟩
  | '<' :: rest => some ⟨[], some .less, rest⟩
  | '=' :: '=' :: rest => some ⟨[], some .equal, rest⟩
  | '=' :: rest => some ⟨[], none, rest⟩
  | '!' :: '=' :: rest => some ⟨[], some .unequal, rest⟩
  | c :: rest =>
    (cutComparator? rest).map fun found => { found with before := c :: found.before }

/-- The side of a test that a text spells. -/
def Side.read (locals : List Text) (text : Text) : Checked Side := do
  let (negated, rest) := Text.negation (Text.trim text)
  let name := Text.trim rest
  if name.isEmpty then
    note .missingOperand
    pure ⟨negated, .operand (.constant 0)⟩
  else
    let atom ← Atom.read locals name
    pure ⟨negated, atom.getD (.operand (.constant 0))⟩

/-- The comparator meant, with a note about a single `=`. -/
def FoundComparator.read (found : FoundComparator) (text : Text) : Checked Comparator :=
  match found.comparator with
  | some comparator => pure comparator
  | none => do
    note (.loneEquals text)
    pure .equal

/-- The test that a text spells. -/
def Test.read (locals : List Text) (text : Text) : Checked Test :=
  match cutComparator? text with
  | none => do
    let side ← Side.read locals text
    pure (.single side)
  | some found => do
    let comparator ← found.read text
    let left ← Side.read locals found.before
    let right ← Side.read locals (Text.dropLeading '#' (Text.trim found.after))
    pure (.compare left comparator right)

end SignalScript
