import SignalScript.Expression.Chain

/-!
# Reading assignments

A statement is a chain, or a name, an equals sign and a chain. The sign may be decorated: `==`,
`=#` and `==#` mean the same. Only external variables and local variables are assigned to. A
statement that cannot be read is dropped, and a note says why.

## Main definitions

* `plainEquals` — the text with an undecorated first equals sign
* `Target.named?` — the place that a name stands for
* `Assignment.read` — the assignment that a statement spells
-/

namespace SignalScript

/-- Takes `=#`, `#` or `=` off the front of a text. -/
def dropDecoration (text : Text) : Text :=
  match text with
  | '=' :: '#' :: rest => rest
  | '#' :: rest => rest
  | '=' :: rest => rest
  | _ => text

/-- The text with an undecorated first equals sign. -/
def plainEquals (text : Text) : Text :=
  match Text.cut? '=' text with
  | none => text
  | some (before, after) => before ++ '=' :: dropDecoration after

/-- The variable of a given name. -/
def Target.named? (locals : List Text) (name : Text) : Option Target :=
  match ExternalVariable.named? name with
  | some v => some (.external v)
  | none => (slot? locals name).map .slot

/-- The place and the text of the chain in a statement without semicolons. -/
def Assignment.sides (locals : List Text) (statement : Text) : Checked (Option (Target × Text)) :=
  match (Text.pieces '=' statement).map Text.trim with
  | [chain] => pure (some (.discard, chain))
  | [name, chain] =>
    if name.isEmpty || chain.isEmpty then do
      note (.incompleteAssignment (Text.trim statement))
      pure none
    else
      match Target.named? locals name with
      | some target => pure (some (target, chain))
      | none => do
        note (.unknownTarget name)
        pure none
  | _ => do
    note (.surplusEquals (Text.trim statement))
    pure none

/-- The assignment that a statement on line `line` spells, or nothing if it cannot be read. -/
def Assignment.read (locals : List Text) (line : Nat) (text : Text) :
    Checked (Option Assignment) := do
  match ← sides locals ((plainEquals text).filter fun c => c ≠ ';') with
  | none => pure none
  | some (target, chainText) =>
    match ← Chain.read locals chainText with
    | none => pure none
    | some [] => do
      note .emptyStatement
      pure none
    | some chain => pure (some ⟨target, chain, line⟩)

end SignalScript
