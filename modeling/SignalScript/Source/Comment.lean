import SignalScript.Text.Basic

/-!
# Comments

A comment is opened by `//` and ends with its line, or by `/*` and ends at the next `*/`, which
may stand on a later line. Whichever opens first decides: an opener inside a comment means
nothing, and the characters of `/*/` open a comment without closing it. A comment that is closed
on a line leaves a space, so the text around it is not joined.

## Main definitions

* `Comment.Uncommented` — a line without its comments, and whether a comment is still open
* `Comment.strip` — takes the comments out of a line
-/

namespace SignalScript.Comment

/-- A line without its comments. -/
structure Uncommented where
  text : Text
  /-- A comment goes on beyond the end of the line. -/
  isOpen : Bool
  deriving DecidableEq, Repr

/-- Puts a character in front. -/
def Uncommented.cons (c : Char) (line : Uncommented) : Uncommented :=
  { line with text := c :: line.text }

/-- Takes the comments out of a line that begins inside a comment if `inside` holds. -/
def strip : (inside : Bool) → Text → Uncommented
  | true, '*' :: '/' :: rest => (strip false rest).cons ' '
  | true, _ :: rest => strip true rest
  | true, [] => ⟨[], true⟩
  | false, '/' :: '/' :: _ => ⟨[], false⟩
  | false, '/' :: '*' :: rest => strip true rest
  | false, c :: rest => (strip false rest).cons c
  | false, [] => ⟨[], false⟩

end SignalScript.Comment
