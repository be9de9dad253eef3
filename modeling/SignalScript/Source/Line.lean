import SignalScript.Text.LetterCase
import SignalScript.Source.Comment
import SignalScript.Source.Encoding

/-!
# Logical lines

A script file is read as a sequence of logical lines. Each physical line is put into capitals, its
tabs become spaces and its comments are removed; what remains is cut behind every `;` and around
every brace, and the pieces are trimmed. Pieces without text disappear. In what is kept, a space
separates `IF` from a bracket right behind it.

## Main definitions

* `LogicalLine` — a piece of source text with the number of its physical line
* `cutStatements` — the pieces of one line
* `logicalLines` — the logical lines of a file
-/

namespace SignalScript

/-- A piece of source text and the number of the physical line it stands on, counted from one. -/
structure LogicalLine where
  text : Text
  number : Nat
  deriving DecidableEq, Repr

/-- The text with a space between `IF` and a bracket right behind it. -/
def spaceIf : Text → Text
  | 'I' :: 'F' :: '(' :: rest => 'I' :: 'F' :: ' ' :: '(' :: spaceIf rest
  | c :: rest => c :: spaceIf rest
  | [] => []

/-- The piece in the form of a logical line, or nothing if it is blank. -/
def tidyPiece (piece : Text) : List Text :=
  let piece := Text.trim piece
  if piece.isEmpty then [] else [spaceIf piece]

/-- The pieces of a text when `held`, last character first, stands in front of it: a piece ends
behind a `;` and on both sides of a brace. -/
def cutStatementsAfter (held : Text) : Text → List Text
  | [] => tidyPiece held.reverse
  | c :: rest =>
    if c = ';' then tidyPiece (c :: held).reverse ++ cutStatementsAfter [] rest
    else if c = '{' ∨ c = '}' then tidyPiece held.reverse ++ [c] :: cutStatementsAfter [] rest
    else cutStatementsAfter (c :: held) rest

/-- The pieces of one line: a piece ends behind a `;` and on both sides of a brace. -/
def cutStatements (text : Text) : List Text := cutStatementsAfter [] text

/-- The line in capitals with spaces for tabs. -/
def normalizeLine (line : Text) : Text :=
  (Text.upper line).map fun c => if c = '\t' then ' ' else c

/-- The logical lines of physical lines numbered from `number`, the first of which begins inside
a comment if `inside` holds. -/
def logicalLinesFrom (number : Nat) (inside : Bool) : List Text → List LogicalLine
  | [] => []
  | line :: rest =>
    let bare := Comment.strip inside (normalizeLine line)
    (cutStatements bare.text).map (⟨·, number⟩) ++ logicalLinesFrom (number + 1) bare.isOpen rest

/-- The logical lines of a file. -/
def logicalLines (bytes : List UInt8) : List LogicalLine :=
  logicalLinesFrom 1 false (sourceLines bytes)

end SignalScript
