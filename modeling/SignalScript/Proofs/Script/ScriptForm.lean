import Mathlib.Data.List.Nodup
import SignalScript.Listing
import SignalScript.Proofs.Source.Utf8Encoding
import SignalScript.Proofs.Statement.Gathering
import SignalScript.Script.Compilation

/-!
# The form of scripts

Compilation never fails, so whatever the bytes of a file are, every script made of them has to be
fit to run: its local variables are named and told apart, and its statements refer to nothing else.

## Main definitions

* `Script.WellFormed` — what is promised of a script

## Main results

* `declarations_locals` — declared names are not empty, and no two of them are the same
* `wellFormed_of_mem_compile` — the scripts of a file keep all promises
-/

namespace SignalScript

/-- What is promised of a script. -/
structure Script.WellFormed (script : Script) : Prop where
  name_ne_nil : ∀ name ∈ script.locals, name ≠ []
  nodup : script.locals.Nodup
  body : ∀ statement ∈ script.body, statement.WellFormed script.locals

section Declarations

variable {locals : List Text}

/-- A name is declared only if it is not empty and not declared yet. -/
theorem declare_locals (hne : ∀ name ∈ locals, name ≠ []) (hnodup : locals.Nodup) (name : Text) :
    (∀ other ∈ declare locals name, other ≠ []) ∧ (declare locals name).Nodup := by
  rw [declare]
  split
  · exact ⟨hne, hnodup⟩
  · rename_i hnew
    simp only [Bool.or_eq_true, List.isEmpty_iff, decide_eq_true_eq, not_or] at hnew
    refine ⟨List.forall_mem_append.mpr ⟨hne, List.forall_mem_singleton.mpr hnew.1⟩, ?_⟩
    refine List.nodup_append.mpr ⟨hnodup, List.nodup_singleton name, ?_⟩
    intro other hother last hlast
    rw [List.mem_singleton.mp hlast]
    exact ne_of_mem_of_not_mem hother hnew.2

theorem localDeclarations_locals (hne : ∀ name ∈ locals, name ≠ []) (hnodup : locals.Nodup)
    (lines : List LogicalLine) :
    (∀ name ∈ (localDeclarations locals lines).locals, name ≠ []) ∧
      (localDeclarations locals lines).locals.Nodup := by
  induction lines generalizing locals with
  | nil => exact ⟨hne, hnodup⟩
  | cons line lines ih =>
    rw [localDeclarations]
    split
    · rename_i name _
      have hdeclare := declare_locals hne hnodup name
      exact ih hdeclare.1 hdeclare.2
    · exact ⟨hne, hnodup⟩

/-- Declared names are not empty, and no two of them are the same. -/
theorem declarations_locals (lines : List LogicalLine) :
    (∀ name ∈ (declarations lines).locals, name ≠ []) ∧ (declarations lines).locals.Nodup :=
  localDeclarations_locals (by simp) List.nodup_nil _

end Declarations

theorem Section.wellFormed_compile (script : Section) : script.compile.value.WellFormed where
  name_ne_nil := (declarations_locals script.lines).1
  nodup := (declarations_locals script.lines).2
  body := wellFormed_readStatements _ _

/-- Every script was compiled from one of the sections. -/
theorem mem_compileSections {file : String} {sections : List Section} {script : Script}
    (h : script ∈ (compileSections file sections).value) :
    ∃ found ∈ sections, script = found.compile.value := by
  induction sections with
  | nil => cases h
  | cons first later ih =>
    rcases List.mem_cons.mp h with rfl | h
    · exact ⟨first, List.mem_cons_self, rfl⟩
    · obtain ⟨found, hfound, hscript⟩ := ih h
      exact ⟨found, List.mem_cons_of_mem _ hfound, hscript⟩

/-- Whatever the bytes of a file are, its scripts keep all promises. -/
theorem wellFormed_of_mem_compile (file : String) (bytes : List UInt8) :
    ∀ script ∈ (compile file bytes).value, script.WellFormed := by
  intro script hscript
  obtain ⟨found, -, rfl⟩ := mem_compileSections hscript
  exact found.wellFormed_compile

/-- All that is in the scripts of a file was read from a text. -/
theorem isRead_of_mem_compile {file : String} {bytes : List UInt8} {script : Script}
    (h : script ∈ (compile file bytes).value) :
    ∀ statement ∈ script.body, statement.IsRead script.locals := by
  obtain ⟨found, -, rfl⟩ := mem_compileSections h
  exact isRead_readStatements _ _

/-- The text of these lines. -/
def ofLines (lines : List String) : Text := lines.flatMap fun line => line.toList ++ ['\n']

/-- A text with one script. It asks a signal ahead, chooses between three bodies, one of them by a
negated compound, and leaves from inside a group. -/
def sampleText : Text :=
  ofLines ["script Home // the entry from the yard",
    "float x;",
    "x = 1 + 2 * (next_sig_lr(1) - !state);",
    "if (x > 2 and not (enabled or route_set() == 1)) \x7b",
    "  state = (x + return) / 2;",
    "\x7d else if (block_state != 0) draw_state = x;",
    "else \x7b state = sigasp_stop; \x7d"]

/-- A file with that text. -/
def sampleFile : List UInt8 := Utf8.encode sampleText

/-- The section of that script. -/
def sampleSection : Section :=
  ⟨"HOME".toList, 1,
    [⟨"FLOAT X;".toList, 2⟩,
      ⟨"X = 1 + 2 * (NEXT_SIG_LR(1) - !STATE);".toList, 3⟩,
      ⟨"IF (X > 2 AND NOT (ENABLED OR ROUTE_SET() == 1))".toList, 4⟩,
      ⟨"\x7b".toList, 4⟩,
      ⟨"STATE = (X + RETURN) / 2;".toList, 5⟩,
      ⟨"\x7d".toList, 6⟩,
      ⟨"ELSE IF (BLOCK_STATE != 0) DRAW_STATE = X;".toList, 6⟩,
      ⟨"ELSE".toList, 7⟩,
      ⟨"\x7b".toList, 7⟩,
      ⟨"STATE = SIGASP_STOP;".toList, 7⟩,
      ⟨"\x7d".toList, 7⟩]⟩

theorem head?_sampleText : sampleText.head? ≠ some '\ufeff' := by decide +kernel

theorem hasUtf16Mark_sampleFile : hasUtf16Mark sampleFile = false := hasUtf16Mark_encode _

theorem hasUtf8Mark_sampleFile : hasUtf8Mark sampleFile = false :=
  hasUtf8Mark_encode head?_sampleText

theorem logicalLines_sampleFile :
    logicalLines sampleFile = ⟨"SCRIPT HOME".toList, 1⟩ :: sampleSection.lines := by
  rw [sampleFile, logicalLines_encode head?_sampleText]
  decide +kernel

theorem sections_sampleFile : sections (logicalLines sampleFile) = [sampleSection] := by
  rw [logicalLines_sampleFile]
  decide

theorem mem_compile_sampleFile :
    sampleSection.compile.value ∈ (compile "A.TXT" sampleFile).value := by
  rw [compile, sections_sampleFile]
  exact List.mem_cons_self

/-- The script of the sample, as it was compiled: the text behind `RETURN` is left out. -/
theorem wellFormed_of_mem_compile_sample :
    ∃ script ∈ (compile "A.TXT" sampleFile).value,
      script.listing =
        ofLines ["SCRIPT HOME",
          "    FLOAT X  ; slot 0",
          "    X = 1 + 2 * (NEXT_SIG_LR(1) - !STATE)",
          "    IF (X > 2 AND NOT (ENABLED OR ROUTE_SET() == 1))",
          "        STATE = (X + RETURN)",
          "    ELSEIF (BLOCK_STATE != 0)",
          "        DRAW_STATE = X",
          "    ELSE",
          "        STATE = SIGASP_STOP",
          "    ENDIF"] ∧
      script.WellFormed :=
  ⟨_, mem_compile_sampleFile, by decide +kernel,
    wellFormed_of_mem_compile _ _ _ mem_compile_sampleFile⟩

end SignalScript
