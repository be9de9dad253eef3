import SignalScript.Proofs.Fuel.Run
import SignalScript.Proofs.Fuel.Structure

/-!
# Compilation and runs terminate

The lines of a file are found in one pass over its bytes, and the sections and their declarations in
one pass over the lines. What is left of the lines of a section is structured within fuel that the
weight of all lines of the file bounds. A script that was compiled runs within fuel that the number
of its terms bounds.

## Main definitions

* `compileWithin` — the scripts of a file, within some fuel

## Main results

* `compileWithin_eq` — fuel above the measure of the lines of a file is enough to compile it
* `compile_terminates` — compilation and runs terminate, whatever the input
-/

namespace SignalScript

/-! ### Compilation within fuel -/

/-- The script of a section, within some fuel. -/
def Section.compileWithin (fuel : Nat) (script : Section) : Limited Problem Script := do
  let declarations := declarations script.lines
  let body ← readStatementsWithin fuel declarations.locals declarations.body
  pure ⟨script.name, script.number, declarations.locals, body⟩

/-- The scripts of several sections, within some fuel for each. -/
def compileSectionsWithin (fuel : Nat) (file : String) :
    List Section → Limited Diagnostic (List Script)
  | [] => pure []
  | first :: later => do
    let script ← (first.compileWithin fuel).mapNotes (Problem.diagnostic file first.name)
    let scripts ← compileSectionsWithin fuel file later
    pure (script :: scripts)

/-- The scripts of a file, within some fuel. -/
def compileWithin (fuel : Nat) (file : String) (bytes : List UInt8) :
    Limited Diagnostic (List Script) :=
  compileSectionsWithin fuel file (sections (logicalLines bytes))

/-! ### The weight of sections -/

/-- Leaving out lines makes them no heavier. -/
theorem weight_le_of_sublist {lines other : List LogicalLine} (h : lines.Sublist other) :
    weight lines ≤ weight other := by
  induction h with
  | slnil => exact Nat.le_refl 0
  | cons line _ ih =>
    rw [weight_cons]
    omega
  | cons_cons line _ ih =>
    rw [weight_cons, weight_cons]
    omega

/-- The lines of a section are lines of the file. -/
theorem sublist_splitSections (lines : List LogicalLine) :
    (splitSections lines).1.Sublist lines ∧
      ∀ found ∈ (splitSections lines).2, found.lines.Sublist lines := by
  induction lines with
  | nil => exact ⟨List.Sublist.refl _, List.forall_mem_nil _⟩
  | cons line rest ih =>
    obtain ⟨hfront, hlater⟩ := ih
    have hlater' : ∀ found ∈ (splitSections rest).2, found.lines.Sublist (line :: rest) :=
      fun found hfound => (hlater found hfound).cons line
    rw [splitSections]
    simp only
    split
    · exact ⟨List.nil_sublist _, List.forall_mem_cons.mpr ⟨hfront.cons line, hlater'⟩⟩
    · exact ⟨List.nil_sublist _, hlater'⟩
    · exact ⟨hfront.cons_cons line, hlater'⟩

theorem sublist_localDeclarations (locals : List Text) (lines : List LogicalLine) :
    (localDeclarations locals lines).body.Sublist lines := by
  induction lines generalizing locals with
  | nil => exact List.Sublist.refl _
  | cons line rest ih =>
    rw [localDeclarations]
    split
    · exact (ih _).cons line
    · exact List.Sublist.refl _

/-- The lines of a body are lines of its section. -/
theorem sublist_declarations (lines : List LogicalLine) :
    (declarations lines).body.Sublist lines :=
  (sublist_localDeclarations [] _).trans (List.dropWhile_sublist _)

/-! ### Enough fuel -/

/-- Fuel above the measure of its lines is enough to compile a section. -/
theorem Section.compileWithin_eq {fuel : Nat} {script : Section}
    (h : 2 * weight script.lines + 1 < fuel) :
    script.compileWithin fuel = .done script.compile := by
  have hbody := weight_le_of_sublist (sublist_declarations script.lines)
  rw [compileWithin, readStatementsWithin_eq (by omega), compile]
  simp

theorem compileSectionsWithin_eq {fuel : Nat} (file : String) {sections : List Section}
    (h : ∀ script ∈ sections, 2 * weight script.lines + 1 < fuel) :
    compileSectionsWithin fuel file sections = .done (compileSections file sections) := by
  induction sections with
  | nil => rfl
  | cons first later ih =>
    obtain ⟨hfirst, hlater⟩ := List.forall_mem_cons.mp h
    rw [compileSectionsWithin, compileSections, Section.compileWithin_eq hfirst,
      Limited.mapNotes_done, ih hlater]
    exact Limited.done_bind_all fun _ => Limited.done_bind_all fun _ => rfl

/-- Fuel above the measure of the lines of a file is enough to compile it. -/
theorem compileWithin_eq {fuel : Nat} (file : String) {bytes : List UInt8}
    (h : 2 * weight (logicalLines bytes) + 1 < fuel) :
    compileWithin fuel file bytes = .done (compile file bytes) := by
  refine compileSectionsWithin_eq file fun script hscript => ?_
  have := weight_le_of_sublist ((sublist_splitSections (logicalLines bytes)).2 script hscript)
  omega

/-- Whatever the lines of a body hold, fuel above twice their weight is enough to structure them;
whatever the head of an arm holds, fuel above its length is enough to read its condition. So every
file is compiled, and every compiled script runs to its end at any signal: its terms name levels
above their own. -/
theorem compile_terminates (locals : List Text) (file : String) (bytes : List UInt8) :
    (∀ lines fuel, 2 * weight lines + 1 < fuel →
      readStatementsWithin fuel locals lines = .done (readStatements locals lines)) ∧
    (∀ head fuel, head.length < fuel →
      Condition.readWithin fuel locals head = .done (Condition.read locals head)) ∧
    (∀ fuel, 2 * weight (logicalLines bytes) + 1 < fuel →
      compileWithin fuel file bytes = .done (compile file bytes)) ∧
    ∀ script ∈ (compile file bytes).value,
      (∀ assignment, .assign assignment ∈ pointsOf script.body → assignment.chain.Descends) ∧
      ∀ {σ : Type} [SignalHost σ] (host : σ) (fuel : Nat), script.terms < fuel →
        script.runWithin fuel host = some (script.run host) := by
  refine ⟨fun lines fuel => readStatementsWithin_eq, fun head fuel => Condition.readWithin_eq,
    fun fuel => compileWithin_eq file, fun script hscript => ⟨fun assignment hmem => ?_,
      fun host fuel hfuel => Script.runWithin_eq (isRead_of_mem_compile hscript) hfuel host⟩⟩
  obtain ⟨line, text, hread⟩ := holds_pointsOf (isRead_of_mem_compile hscript) _ hmem
  exact (Assignment.wellFormed_read hread).chain.descends

/-- A brace that closes nothing, an `ELSE` without `IF` and an open block, structured within fuel;
and the sample, compiled and run within fuel. -/
theorem compile_terminates_sample :
    readStatementsWithin 40 [] [⟨"\x7d ELSE \x7b".toList, 1⟩, ⟨"A;;".toList, 2⟩] =
      .done (readStatements [] [⟨"\x7d ELSE \x7b".toList, 1⟩, ⟨"A;;".toList, 2⟩]) ∧
    Condition.readWithin 10 [] "IF (()".toList = .done (Condition.read [] "IF (()".toList) ∧
    compileWithin 500 "A.TXT" sampleFile = .done (compile "A.TXT" sampleFile) ∧
    sampleSection.compile.value.runWithin (sampleSection.compile.value.terms + 1)
      FixedSignal.blank = some (sampleSection.compile.value.run FixedSignal.blank) := by
  obtain ⟨hstructure, hcondition, hcompile, hrun⟩ := compile_terminates [] "A.TXT" sampleFile
  have hfuel : 2 * weight (logicalLines sampleFile) + 1 < 500 := by
    rw [logicalLines_sampleFile]
    decide
  exact ⟨hstructure _ 40 (by decide), hcondition _ 10 (by decide), hcompile 500 hfuel,
    (hrun _ mem_compile_sampleFile).2 _ _ (Nat.lt_succ_self _)⟩

end SignalScript
