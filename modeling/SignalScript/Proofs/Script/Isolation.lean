import SignalScript.Proofs.Script.ScriptForm
import SignalScript.Proofs.Statement.Renumbering

/-!
# Scripts do not disturb each other

Nothing is carried over from one section of a file to the next, however badly a script ends. So a
file may be cut in front of any marker: what is compiled from the whole is what is compiled from
its two parts, and the second part only stands on later lines.

## Main definitions

* `Script.renumbered`, `Diagnostic.renumbered` — the same with other line numbers

## Main results

* `compile_append` — the scripts and diagnostics of a file in two parts
-/

namespace SignalScript

/-- The script on other lines. -/
def Script.renumbered (f : Nat → Nat) (script : Script) : Script :=
  { script with line := f script.line, body := Statement.allRenumbered f script.body }

/-- The diagnostic on another line. -/
def Diagnostic.renumbered (f : Nat → Nat) (diagnostic : Diagnostic) : Diagnostic :=
  { diagnostic with line := f diagnostic.line }

section Sections

variable (f : Nat → Nat) (file : String)

/-- A section on other lines compiles to the same script on other lines. -/
theorem Section.compile_renumbered (script : Section) :
    (script.renumbered f).compile =
      ⟨script.compile.value.renumbered f, script.compile.notes.map (Problem.renumbered f)⟩ := by
  simp only [Section.compile, Section.renumbered, declarations_renumbered,
    readStatements_renumbered]
  rfl

/-- Each section is compiled for itself. -/
theorem compileSections_append (front back : List Section) :
    compileSections file (front ++ back) =
      ⟨(compileSections file front).value ++ (compileSections file back).value,
        (compileSections file front).notes ++ (compileSections file back).notes⟩ := by
  induction front with
  | nil => rfl
  | cons first later ih =>
    rw [List.cons_append, compileSections, ih, compileSections]
    simp only [bind, pure, List.append_nil, List.cons_append, List.append_assoc]

theorem compileSections_renumbered (sections : List Section) :
    compileSections file (sections.map (Section.renumbered f)) =
      ⟨(compileSections file sections).value.map (Script.renumbered f),
        (compileSections file sections).notes.map (Diagnostic.renumbered f)⟩ := by
  induction sections with
  | nil => rfl
  | cons first later ih =>
    -- A problem moves with its section before it becomes a diagnostic or after.
    have hnotes : (first.compile.notes.map (Problem.renumbered f)).map
        (Problem.diagnostic file first.name) =
        (first.compile.notes.map (Problem.diagnostic file first.name)).map
          (Diagnostic.renumbered f) := by
      rw [List.map_map, List.map_map]
      rfl
    rw [List.map_cons, compileSections, ih, compileSections, first.compile_renumbered]
    simp only [bind, pure, Noted.mapNotes, List.append_nil, List.map_append, List.map_cons]
    rw [← hnotes]
    rfl

end Sections

/-- A file of whole lines behind which a marker stands is compiled as if it ended there, and what
stands behind it as if it began a file, only further down. Marks of encodings other than the usual
one and a comment that is still open would join the parts, and are excluded. -/
theorem compile_append (file : String) {front back : List UInt8} (hwhole : AreWholeLines front)
    (hfront : hasUtf16Mark front = false) (hopen : leavesCommentOpen front = false)
    (h16 : hasUtf16Mark back = false) (h8 : hasUtf8Mark back = false)
    (hmarker : startsWithMarker (logicalLines back)) :
    (compile file (front ++ back)).value =
        (compile file front).value ++
          (compile file back).value.map (Script.renumbered (· + front.count 10)) ∧
      (compile file (front ++ back)).notes =
        (compile file front).notes ++
          (compile file back).notes.map (Diagnostic.renumbered (· + front.count 10)) := by
  obtain ⟨first, rest, hlines, hfirst⟩ := hmarker
  -- Higher numbers do not make a marker any less of one.
  have hfurther :
      startsWithMarker ((logicalLines back).map (LogicalLine.renumbered (· + front.count 10))) :=
    ⟨first.renumbered _, rest.map (LogicalLine.renumbered _), by rw [hlines, List.map_cons], hfirst⟩
  have hboth : compile file (front ++ back) =
      ⟨(compile file front).value ++
          (compile file back).value.map (Script.renumbered (· + front.count 10)),
        (compile file front).notes ++
          (compile file back).notes.map (Diagnostic.renumbered (· + front.count 10))⟩ := by
    rw [compile, logicalLines_append hwhole hfront hopen h16 h8, sections_append _ hfurther,
      sections_renumbered, compileSections_append, compileSections_renumbered]
    rfl
  exact ⟨congrArg Noted.value hboth, congrArg Noted.notes hboth⟩

/-- The bytes of a file whose one script, `B`, opens a block and a bracket and closes neither. -/
def brokenFile : List UInt8 :=
  [83, 67, 82, 73, 80, 84, 32, 66, 10, 123, 32, 83, 84, 65, 84, 69, 32, 61, 32, 40, 49, 10]

/-- The section of that script. -/
def brokenSection : Section :=
  ⟨"B".toList, 1, [⟨"\x7b".toList, 2⟩, ⟨"STATE = (1".toList, 2⟩]⟩

theorem notes_brokenSection : brokenSection.compile.notes ≠ [] := by
  let last : LogicalLine := ⟨"STATE = (1".toList, 2⟩
  have hopen : scanBraces 0 last.text = .inside last.text 0 := rfl
  have hblank : scanBraces 0 [] = .inside [] 0 := rfl
  have hnext : (takeBlock 2 0 [] 2 [last]).problems = (takeBlock 2 0 last.text 2 []).problems :=
    congrArg (fun parts => parts.2.1) (takeBlock_next hblank)
  have hend : (takeBlock 2 0 last.text 2 []).problems = [⟨2, .openBlock⟩] :=
    congrArg (fun parts => parts.2.1) (takeBlock_end hopen)
  have hread : brokenSection.compile.notes =
      (readStatements [] [⟨"\x7b".toList, 2⟩, last]).notes := rfl
  rw [hread, readStatements_brace rfl]
  simp [hnext, hend]

theorem compile_append_broken :
    brokenSection.compile.notes ≠ [] ∧
      sections (logicalLines brokenFile) = [brokenSection] ∧
      (compile "A.TXT" (brokenFile ++ sampleFile)).value =
        (compile "A.TXT" brokenFile).value ++
          (compile "A.TXT" sampleFile).value.map (Script.renumbered (· + 2)) ∧
      (compile "A.TXT" (brokenFile ++ sampleFile)).notes =
        (compile "A.TXT" brokenFile).notes ++
          (compile "A.TXT" sampleFile).notes.map (Diagnostic.renumbered (· + 2)) :=
  ⟨notes_brokenSection, by decide, compile_append "A.TXT" (.inr ⟨brokenFile.dropLast, rfl⟩)
    (by decide) (by decide) hasUtf16Mark_sampleFile hasUtf8Mark_sampleFile
    ⟨_, _, logicalLines_sampleFile, rfl⟩⟩

end SignalScript
