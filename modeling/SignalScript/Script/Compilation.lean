import SignalScript.Statement
import SignalScript.Script.Declaration
import SignalScript.Statement.Reading

/-!
# Compilation

Every section of a file is compiled on its own: its declarations give the local variables, the
rest becomes a tree of statements. Compilation never fails; what could not be understood is
reported in the order of the text, section by section.

## Main definitions

* `Section.compile` — the script of a section
* `compile` — the scripts of a file, with the diagnostics
-/

namespace SignalScript

/-- The script of a section. -/
def Section.compile (script : Section) : Reported Script :=
  let declarations := declarations script.lines
  let body := readStatements declarations.locals declarations.body
  ⟨⟨script.name, script.number, declarations.locals, body.value⟩, body.notes⟩

/-- A problem in a script of a file, as a diagnostic. -/
def Problem.diagnostic (file : String) (script : Text) (problem : Problem) : Diagnostic :=
  ⟨file, problem.line, script, problem.cause⟩

/-- The scripts of sections of a file, with the diagnostics in order. -/
def compileSections (file : String) : List Section → Noted Diagnostic (List Script)
  | [] => pure []
  | first :: later => do
    let script ← first.compile.mapNotes (Problem.diagnostic file first.name)
    let scripts ← compileSections file later
    pure (script :: scripts)

/-- The scripts of a file with the given name and bytes, with the diagnostics in order. -/
def compile (file : String) (bytes : List UInt8) : Noted Diagnostic (List Script) :=
  compileSections file (sections (logicalLines bytes))

end SignalScript
