import SignalScript.Expression
import SignalScript.Diagnostic

/-!
# Reading operands and calls

An operand is a number, an external variable, a local variable or a named constant, looked up in
this order; one `#` in front is decoration. A name that stands for nothing is noted and read as
zero. A call is a function name with its arguments in brackets; a call that cannot be resolved
yields no atom, while a wrong number of arguments is noted and kept.

## Main definitions

* `Operand.known?`, `Operand.read` — the operand that a text spells
* `Call.read`, `Atom.read` — the call or atom that a text spells
* `Text.negation` — a leading `!` or `NOT`, and the rest
-/

namespace SignalScript

/-- A leading `!` or `NOT `, and what follows it without blanks in front. -/
def Text.negation (text : Text) : Bool × Text :=
  match text with
  | '!' :: rest => (true, trimStart rest)
  | 'N' :: 'O' :: 'T' :: ' ' :: rest => (true, trimStart rest)
  | _ => (false, text)

theorem Text.length_negation_le (text : Text) : (negation text).2.length ≤ text.length := by
  unfold negation
  split
  · exact Nat.le_trans (length_trimStart_le _) (by simp)
  · exact Nat.le_trans (length_trimStart_le _) (by simp only [List.length_cons]; omega)
  · exact Nat.le_refl _

/-- The place of a name among the local variables. -/
def slot? (locals : List Text) (name : Text) : Option Nat := locals.findIdx? fun l => l = name

/-- The family whose stem a name begins with. -/
def Family.ofStem? (name : Text) : Option Family :=
  all.find? fun family => family.stem.toList.isPrefixOf name

namespace Operand

/-- The operand that a name stands for. -/
def known? (locals : List Text) (name : Text) : Option Operand :=
  match Decimal.readInt32? name with
  | some value => some (.constant value)
  | none =>
    match ExternalVariable.named? name with
    | some v => some (.external v)
    | none =>
      match slot? locals name with
      | some index => some (.slot index)
      | none => (Family.resolve? name).map fun (family, value) => .named family value

/-- The operand that a text spells; an unknown name is noted and counts as zero. -/
def read (locals : List Text) (text : Text) : Checked Operand :=
  let name := Text.trim (Text.dropLeading '#' text)
  match known? locals name with
  | some operand => pure operand
  | none => do
    note (.unknownOperand (Family.ofStem? name) name)
    pure (.constant 0)

end Operand

namespace Call

/-- The texts of the arguments behind the opening bracket of a call: closing brackets are taken
out, and what remains is split at commas unless it is blank. -/
def argumentTexts (rest : Text) : List Text :=
  let inner := Text.trim (rest.filter fun c => c ≠ ')')
  if inner.isEmpty then [] else (Text.pieces ',' inner).map Text.trim

/-- The call that a text with a bracket spells. -/
def read (locals : List Text) (text : Text) : Checked (Option Call) :=
  match Text.cut? '(' text with
  | none => pure none
  | some (before, rest) =>
    if '(' ∈ rest then do
      note (.nestedCall text)
      pure none
    else
      match Function.named? (Text.trim before) with
      | none => do
        note (.unknownFunction (Text.trim before))
        pure none
      | some function => do
        let arguments ← (argumentTexts rest).mapM (Operand.read locals)
        if arguments.length ≠ function.arity then
          note (.arityMismatch function arguments.length)
        pure (some ⟨function, arguments⟩)

end Call

/-- The atom that a text spells: a call if it has a bracket, an operand otherwise. -/
def Atom.read (locals : List Text) (text : Text) : Checked (Option Atom) :=
  if '(' ∈ text then do
    let call ← Call.read locals text
    pure (call.map .call)
  else do
    let operand ← Operand.read locals text
    pure (some (.operand operand))

end SignalScript
