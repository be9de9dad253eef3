import SignalScript.Vocabulary
import SignalScript.Noted
import SignalScript.Text.Decimal

/-!
# Diagnostics

Nothing in a script stops its compilation. What cannot be understood is left out or read as zero,
and a diagnostic says so. A reader of script text notes causes; the place is added where it is
known: first the line, then the script and the file.

## Main definitions

* `Cause` — what is wrong
* `Cause.kind` — the broad category
* `Cause.message` — the wording
* `Problem` — a cause at a line
* `Diagnostic` — a cause with file, line and script, and its one-line `text`
-/

namespace SignalScript

/-- Why a file cannot be read. -/
inductive ReadError
  | notFound
  | isDirectory
  | notDirectory
  /-- The bytes are no text. -/
  | notText
  /-- Any other failure, in the words of the system. -/
  | other (message : String)
  deriving DecidableEq, Repr

/-- The wording of a read error. -/
def ReadError.message : ReadError → String
  | .notFound => "No such file or directory (os error 2)"
  | .isDirectory => "Is a directory (os error 21)"
  | .notDirectory => "Not a directory (os error 20)"
  | .notText => "stream did not contain valid UTF-8"
  | .other message => message

/-- Broad category of a diagnostic. -/
inductive Kind
  /-- Brackets, braces and terminators. -/
  | structural
  /-- Names that stand for nothing. -/
  | resolution
  /-- Scripts that no signal type takes. -/
  | registration
  /-- Files that cannot be read. -/
  | io
  deriving DecidableEq, Repr

/-- What is wrong. -/
inductive Cause
  /-- A chain has not as many closing as opening brackets, or they do not match. -/
  | unmatchedBrackets (source : Text)
  /-- A group is followed by something other than an operator. -/
  | missingOperator (source : Text)
  /-- Nothing stands between two operators. -/
  | emptyTerm (source : Text)
  /-- Text follows a `RETURN`. -/
  | textAfterReturn (source : Text)
  /-- One side of an assignment is blank. -/
  | incompleteAssignment (statement : Text)
  /-- A statement has more than one `=`. -/
  | surplusEquals (statement : Text)
  /-- A statement holds no term. -/
  | emptyStatement
  /-- A condition has no brackets. -/
  | missingCondition (head : Text)
  /-- The last closing bracket of a condition stands in front of the first opening one. -/
  | malformedCondition (head : Text)
  /-- Nothing stands between two separators of a condition. -/
  | emptyCondition
  /-- A single `=` is used to compare. -/
  | loneEquals (test : Text)
  /-- One side of a comparison is blank. -/
  | missingOperand
  /-- A closing brace has no partner. -/
  | strayBrace
  /-- An `ELSE` follows no `IF`. -/
  | strayElse (line : Text)
  /-- A statement does not end. -/
  | missingSemicolon (statement : Text)
  /-- The brackets of a condition do not close. -/
  | openCondition (head : Text)
  /-- A block does not end. -/
  | openBlock
  /-- A branch has no statement. -/
  | missingBody
  /-- An operand has an unknown name; the family is that of its stem. -/
  | unknownOperand (family : Option Family) (name : Text)
  /-- A call stands inside a call. -/
  | nestedCall (call : Text)
  /-- A call names no function. -/
  | unknownFunction (name : Text)
  /-- A call has the wrong number of arguments. -/
  | arityMismatch (function : Function) (found : Nat)
  /-- An assignment names no variable. -/
  | unknownTarget (name : Text)
  /-- The script is written for no known signal type. -/
  | unknownType (name : Text)
  /-- The signal type has a script already. -/
  | duplicateScript (type : Text)
  /-- The file at `path` cannot be read. -/
  | unreadable (path : String) (error : ReadError)
  deriving DecidableEq, Repr

namespace Cause

/-- The category of a cause. -/
def kind : Cause → Kind
  | unmatchedBrackets _ | missingOperator _ | emptyTerm _ | textAfterReturn _
  | incompleteAssignment _ | surplusEquals _ | emptyStatement | missingCondition _
  | malformedCondition _ | emptyCondition | loneEquals _ | missingOperand | strayBrace
  | strayElse _ | missingSemicolon _ | openCondition _ | openBlock | missingBody => .structural
  | unknownOperand _ _ | nestedCall _ | unknownFunction _ | arityMismatch _ _
  | unknownTarget _ => .resolution
  | unknownType _ | duplicateScript _ => .registration
  | unreadable _ _ => .io

/-- What an unknown name was taken for. -/
def noun : Option Family → String
  | none => "parameter"
  | some .block => "block state"
  | some .aspect => "aspect"
  | some .signalFunction => "signal function"
  | some .feature => "signal feature"

/-- `text` between single quotes. -/
def quoted (text : Text) : String := "'" ++ text.string ++ "'"

/-- The wording of a cause. -/
def message : Cause → String
  | unmatchedBrackets source => "unmatched brackets in " ++ quoted source
  | missingOperator source => "missing operator after ')' in " ++ quoted source
  | emptyTerm source => "empty term in " ++ quoted source
  | textAfterReturn source => "text after RETURN ignored in " ++ quoted source
  | incompleteAssignment statement => "incomplete assignment " ++ quoted statement
  | surplusEquals statement => "unexpected number of '=' in " ++ quoted statement
  | emptyStatement => "empty statement"
  | missingCondition head => "missing condition in " ++ quoted head
  | malformedCondition head => "malformed condition in " ++ quoted head
  | emptyCondition => "empty condition"
  | loneEquals test => "'=' used as comparison in " ++ quoted test ++ ", read as '=='"
  | missingOperand => "missing operand in condition"
  | strayBrace => "unexpected '\x7d'"
  | strayElse line => quoted line ++ " without matching IF"
  | missingSemicolon statement => "missing ';' after " ++ quoted statement
  | openCondition head => "unmatched brackets in condition " ++ quoted head
  | openBlock => "unclosed '\x7b'"
  | missingBody => "missing body"
  | unknownOperand family name => "unknown " ++ noun family ++ " " ++ quoted name
  | nestedCall call => "unexpected '(' in function call " ++ quoted call
  | unknownFunction name => "unknown function " ++ quoted name
  | arityMismatch function found =>
    function.name ++ " expects " ++ (Decimal.writeNat function.arity).string ++
      " argument(s), found " ++ (Decimal.writeNat found).string
  | unknownTarget name => "unknown assignment target " ++ quoted name
  | unknownType name => "ignored script for unknown signal type " ++ quoted name
  | duplicateScript type => "ignored duplicate script for signal type " ++ quoted type
  | unreadable path error => "cannot read " ++ path ++ ": " ++ error.message

end Cause

/-- A cause at a line of a script. -/
structure Problem where
  line : Nat
  cause : Cause
  deriving DecidableEq, Repr

/-- A value with the causes noted while it was read. -/
abbrev Checked := Noted Cause

/-- A value with the problems noted while it was read. -/
abbrev Reported := Noted Problem

/-- The causes noted on one line become problems of that line. -/
def Noted.atLine {α : Type} (checked : Checked α) (line : Nat) : Reported α :=
  checked.mapNotes (⟨line, ·⟩)

/-- A cause with the place where it was found. -/
structure Diagnostic where
  file : String
  line : Nat
  /-- The script, or nothing outside any script. -/
  script : Text
  cause : Cause
  deriving DecidableEq, Repr

namespace Diagnostic

/-- The category of the cause. -/
def kind (diagnostic : Diagnostic) : Kind := diagnostic.cause.kind

/-- The diagnostic as one line: file, line number, script if any, message. -/
def text (diagnostic : Diagnostic) : String :=
  diagnostic.file ++ ":" ++ (Decimal.writeNat diagnostic.line).string ++
    (if diagnostic.script.isEmpty then "" else " [" ++ diagnostic.script.string ++ "]") ++
    " " ++ diagnostic.cause.message

end Diagnostic

end SignalScript
