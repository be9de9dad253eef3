import SignalScript.Source.Line
import SignalScript.Text.WordCharacter

/-!
# Sections of a script file

A file holds the scripts of several signal types. The line `SCRIPT name` opens the section of one
script, which runs to the next marker; `REM SCRIPT` closes the section before it and discards
everything up to the next `SCRIPT`. Lines in front of the first marker belong to no script.

## Main definitions

* `Section` — the lines of one script
* `Marker.of?` — the marker that a line is
* `sections` — the sections of a file
-/

namespace SignalScript

/-- A line that begins or ends a section. -/
inductive Marker
  /-- Opens the section of the named script. -/
  | script (name : Text)
  /-- Opens text that belongs to no script. -/
  | remark
  deriving DecidableEq, Repr

/-- What follows `word` and at least one blank, without the blanks, if the text begins so. -/
def afterWord? (word : String) (text : Text) : Option Text :=
  match Text.dropStem? word.toList text with
  | some (c :: rest) => if Text.isBlank c then some (Text.trimStart rest) else none
  | _ => none

/-- The marker that a line is, if any. -/
def Marker.of? (text : Text) : Option Marker :=
  match afterWord? "SCRIPT" text with
  | some name => some (.script (Text.trim name))
  | none =>
    match (afterWord? "REM" text).bind (Text.dropStem? "SCRIPT".toList) with
    | some rest => if Text.endsWord rest then some .remark else none
    | none => none

/-- The lines of one script. -/
structure Section where
  /-- The name behind the marker. -/
  name : Text
  /-- The physical line of the marker. -/
  number : Nat
  lines : List LogicalLine
  deriving DecidableEq, Repr

/-- The lines in front of the first marker, and the sections from there on. -/
def splitSections : List LogicalLine → List LogicalLine × List Section
  | [] => ([], [])
  | line :: rest =>
    let (lines, later) := splitSections rest
    match Marker.of? line.text with
    | some (.script name) => ([], ⟨name, line.number, lines⟩ :: later)
    | some .remark => ([], later)
    | none => (line :: lines, later)

/-- The sections of a sequence of lines. -/
def sections (lines : List LogicalLine) : List Section := (splitSections lines).2

end SignalScript
