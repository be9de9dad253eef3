import SignalScript.Source.Section

/-!
# Declarations

A script may begin with lines that declare what it uses. `EXTERN FLOAT` lines come first and are
passed over; each `FLOAT` line after them declares a local variable. Variables get slots in the
order of their first declaration. The first line of another form ends the declarations.

## Main definitions

* `isExternal`, `declared?` — the two kinds of declaration
* `Declarations`, `declarations` — the local variables of a script and the lines behind them
-/

namespace SignalScript

/-- The line declares external variables. -/
def isExternal (text : Text) : Bool :=
  match (afterWord? "EXTERN" text).bind (Text.dropStem? "FLOAT".toList) with
  | some (c :: _) => Text.isBlank c
  | _ => false

/-- The text without a semicolon at its end. -/
def dropSemicolon : Text → Text
  | [] => []
  | [c] => if c = ';' then [] else [c]
  | c :: rest => c :: dropSemicolon rest

/-- The name behind `FLOAT`, which may be empty; no semicolon may stand in it. -/
def declared? (text : Text) : Option Text :=
  match afterWord? "FLOAT" text with
  | none => none
  | some rest =>
    let name := dropSemicolon rest
    if ';' ∈ name then none else some (Text.trim name)

/-- The local variables of a script, in slot order, and the lines behind their declarations. -/
structure Declarations where
  locals : List Text
  body : List LogicalLine
  deriving DecidableEq, Repr

/-- Adds a name behind the others, unless it is empty or known. -/
def declare (locals : List Text) (name : Text) : List Text :=
  if name.isEmpty || name ∈ locals then locals else locals ++ [name]

/-- Reads `FLOAT` lines when `locals` are declared already. -/
def localDeclarations (locals : List Text) : List LogicalLine → Declarations
  | [] => ⟨locals, []⟩
  | line :: rest =>
    match declared? line.text with
    | some name => localDeclarations (declare locals name) rest
    | none => ⟨locals, line :: rest⟩

/-- The declarations at the front of a script. -/
def declarations (lines : List LogicalLine) : Declarations :=
  localDeclarations [] (lines.dropWhile fun line => isExternal line.text)

end SignalScript
