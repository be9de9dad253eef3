import SignalScript.Proofs.Source.LineShape
import SignalScript.Proofs.Text.CaseTables
import SignalScript.Proofs.Text.Trimming
import SignalScript.Source.Section

/-!
# The line of a script

The line `SCRIPT name` opens the section of that name in capitals: a name of word characters holds
nothing that a physical line is cut, trimmed or otherwise changed at, and neither do its capitals.

## Main definitions

* `Text.isPlain` — the character may stand anywhere in a line without changing how it is read

## Main results

* `Text.isPlain_of_isWordCharacter`, `Text.isPlain_upper` — words are plain, and their capitals are
* `sections_scriptLine` — a file that begins with such a line has the section of that name first
-/

namespace SignalScript

open Text

namespace Text

/-! ### Plain characters -/

/-- The characters that open comments, end or enclose statements, or are spaced. -/
def markRanges : List CodeRange :=
  [(0x28, 0x28), (0x2F, 0x2F), (0x3B, 0x3B), (0x7B, 0x7B), (0x7D, 0x7D)]

/-- The character is no blank, and means nothing to the reader of lines. -/
def isPlain (c : Char) : Bool := !isBlank c && !inRanges markRanges c

variable {c d : Char} {text : Text}

theorem isPlain_iff : isPlain c = true ↔ isBlank c = false ∧ inRanges markRanges c = false := by
  simp [isPlain]

theorem ne_of_isPlain (hc : isPlain c = true) (hd : isPlain d = false) : c ≠ d := by
  rintro rfl
  rw [hc] at hd
  cases hd

/-- Words are made of plain characters. -/
theorem isPlain_of_isWordCharacter (h : isWordCharacter c = true) : isPlain c = true := by
  obtain ⟨hchain, hclear⟩ : (rangeRuns wordRanges).IsChain CaseRun.Precedes ∧
      sweep CaseRun.clears (rangeRuns wordRanges) (rangeRuns blankRanges) = true ∧
        sweep CaseRun.clears (rangeRuns wordRanges) (rangeRuns markRanges) = true := by
    decide +kernel
  obtain ⟨run, hrun, hc⟩ := inRanges_iff.mp h
  have hblank := all_of_sweep ignoresBelow_clears hchain hclear.1 run hrun
  have hmark := all_of_sweep ignoresBelow_clears hchain hclear.2 run hrun
  exact isPlain_iff.mpr
    ⟨inRanges_eq_false_iff.mpr (not_holds_of_clears (by decide) hblank hc),
      inRanges_eq_false_iff.mpr (not_holds_of_clears (by decide) hmark hc)⟩

/-- The capitals of plain characters are plain. -/
theorem isPlain_of_mem_upperOf (h : isPlain c = true) (hd : d ∈ upperOf c) : isPlain d = true := by
  obtain ⟨hcapitals, hcapitals', hexpansions⟩ :
      sweep CaseRun.clears capitalRuns (rangeRuns blankRanges) = true ∧
        sweep CaseRun.clears capitalRuns (rangeRuns markRanges) = true ∧
        ∀ entry ∈ upperExpansions, ∀ n ∈ entry.2,
          inRanges blankRanges (Char.ofNat n) = false ∧
            inRanges markRanges (Char.ofNat n) = false := by
    decide +kernel
  obtain ⟨hblank, hmark⟩ := isPlain_iff.mp h
  exact isPlain_iff.mpr
    ⟨inRanges_of_mem_upperOf (by decide) hcapitals
        (fun entry hentry =>
          List.forall_mem_map.mpr fun n hn => (hexpansions entry hentry n hn).1) hblank hd,
      inRanges_of_mem_upperOf (by decide) hcapitals'
        (fun entry hentry =>
          List.forall_mem_map.mpr fun n hn => (hexpansions entry hentry n hn).2) hmark hd⟩

/-- Capitals of plain characters are plain. -/
theorem isPlain_upper (h : ∀ c ∈ text, isPlain c = true) : ∀ c ∈ upper text, isPlain c = true := by
  intro d hd
  obtain ⟨c, hc, hd⟩ := List.mem_flatMap.mp hd
  exact isPlain_of_mem_upperOf (h c hc) hd

theorem isTight_of_isPlain (hne : text ≠ []) (h : ∀ c ∈ text, isPlain c = true) :
    IsTight text :=
  isTight_iff.mpr ⟨_, _, List.head?_eq_some_head hne, List.getLast?_eq_some_getLast hne,
    (isPlain_iff.mp (h _ (List.head_mem hne))).1, (isPlain_iff.mp (h _ (List.getLast_mem hne))).1⟩

end Text

/-! ### Lines without marks -/

section Lines

variable {text : Text}

theorem spaceIf_of_not_mem (h : '(' ∉ text) : spaceIf text = text := by
  fun_induction spaceIf text with
  | case1 rest => simp at h
  | case2 c rest _ ih => rw [ih fun hmem => h (List.mem_cons_of_mem _ hmem)]
  | case3 => rfl

end Lines

/-! ### The line of a script -/

section Script

variable {name : Text} {body : List Text}

/-- A marker with a plain name is only put into capitals. -/
theorem normalizeLine_scriptLine (h : ∀ c ∈ name, isPlain c = true) :
    normalizeLine ("SCRIPT ".toList ++ name) = "SCRIPT ".toList ++ upper name := by
  have hname : ((upper name).map fun c => if c = '\t' then ' ' else c) = upper name := by
    refine (List.map_congr_left fun c hc => ?_).trans (List.map_id _)
    exact if_neg (ne_of_isPlain (isPlain_upper h c hc) rfl)
  rw [normalizeLine, upper_append, List.map_append, hname]
  rfl

theorem isTight_scriptLine (h : name.IsTight) : IsTight ("SCRIPT ".toList ++ name) := by
  have hkeyword : IsTight "SCRIPT".toList := by decide
  exact hkeyword.append_space h

theorem cutStatements_scriptLine (hne : name ≠ []) (h : ∀ c ∈ name, isPlain c = true) :
    cutStatements ("SCRIPT ".toList ++ name) = ["SCRIPT ".toList ++ name] := by
  have hkeyword : IsUncut "SCRIPT ".toList := by simp [IsUncut]
  have huncut : IsUncut ("SCRIPT ".toList ++ name) :=
    List.forall_mem_append.mpr ⟨hkeyword, fun c hc =>
      ⟨ne_of_isPlain (h c hc) rfl, ne_of_isPlain (h c hc) rfl, ne_of_isPlain (h c hc) rfl⟩⟩
  have hopening : '(' ∉ "SCRIPT ".toList ++ name := by
    rw [List.mem_append, not_or]
    exact ⟨by decide, fun hmem => ne_of_isPlain (h _ hmem) rfl rfl⟩
  have htight := isTight_scriptLine (isTight_of_isPlain hne h)
  rw [cutStatements, cutStatementsAfter_of_isUncut huncut, List.reverse_nil, List.nil_append,
    tidyPiece, htight.trim_eq, htight.isEmpty_eq, if_neg Bool.false_ne_true,
    spaceIf_of_not_mem hopening]

/-- The name behind the word of a marker is read as it stands. -/
theorem marker_scriptLine (h : name.IsTight) :
    Marker.of? ("SCRIPT ".toList ++ name) = some (.script name) := by
  have hname : afterWord? "SCRIPT" ("SCRIPT ".toList ++ name) = some (trimStart name) := rfl
  rw [Marker.of?, hname, h.trimStart_eq]
  simp only [h.trim_eq]

/-- The line of a script is read in capitals, and what follows it as if nothing stood in front. -/
theorem logicalLinesFrom_scriptLine (hne : name ≠ []) (h : ∀ c ∈ name, isPlain c = true) :
    logicalLinesFrom 1 false (("SCRIPT ".toList ++ name) :: body) =
      ⟨"SCRIPT ".toList ++ upper name, 1⟩ :: logicalLinesFrom 2 false body := by
  have hupper := isPlain_upper h
  have hslash : '/' ∉ "SCRIPT ".toList ++ upper name := by
    rw [List.mem_append, not_or]
    exact ⟨by decide, fun hmem => ne_of_isPlain (hupper _ hmem) rfl rfl⟩
  rw [logicalLinesFrom, normalizeLine_scriptLine h, Comment.strip_of_not_mem hslash,
    cutStatements_scriptLine (upper_ne_nil hne) hupper]
  rfl

/-- The script line opens a section that ends where the lines behind it have a marker. -/
theorem sections_scriptLine (hne : name ≠ []) (h : ∀ c ∈ name, isPlain c = true) :
    sections (logicalLinesFrom 1 false (("SCRIPT ".toList ++ name) :: body)) =
      ⟨upper name, 1, (splitSections (logicalLinesFrom 2 false body)).1⟩ ::
        sections (logicalLinesFrom 2 false body) := by
  have hmarker := marker_scriptLine (isTight_of_isPlain (upper_ne_nil hne) (isPlain_upper h))
  rw [logicalLinesFrom_scriptLine hne h, sections, splitSections]
  simp only [hmarker]
  rfl

end Script

end SignalScript
