import SignalScript.Proofs.Source.LineShape
import SignalScript.Source.Section

/-!
# Where the characters of a section come from

Cutting a physical line into logical lines takes characters away and adds none but spaces. So the
names of sections, like all else in logical lines, are made of characters of single physical lines.

## Main results

* `exists_infix_of_mem_cutStatements` — a logical line is a part of its physical line
* `mem_of_mem_cutStatements` — its characters stand in the physical line
* `lineFeed_notMem_name` — no name of a section goes beyond its line
-/

namespace SignalScript

open Text

section Lines

variable {c : Char} {held piece text line : Text}

theorem Comment.mem_of_mem_strip (inside : Bool) (hc : c ≠ ' ')
    (h : c ∈ (Comment.strip inside text).text) : c ∈ text := by
  fun_induction Comment.strip inside text with
  | case1 rest ih =>
    have hrest := (List.mem_cons.mp h).resolve_left hc
    exact List.mem_cons_of_mem _ (List.mem_cons_of_mem _ (ih hrest))
  | case2 first rest _ ih => exact List.mem_cons_of_mem _ (ih h)
  | case3 => cases h
  | case4 => cases h
  | case5 rest ih => exact List.mem_cons_of_mem _ (List.mem_cons_of_mem _ (ih h))
  | case6 first rest _ _ ih =>
    rcases List.mem_cons.mp h with rfl | h
    · exact List.mem_cons_self
    · exact List.mem_cons_of_mem _ (ih h)
  | case7 => cases h

theorem mem_of_mem_spaceIf (hc : c ≠ ' ') (h : c ∈ spaceIf text) : c ∈ text := by
  fun_induction spaceIf text with
  | case1 rest ih =>
    simp only [List.mem_cons, hc, false_or] at h ⊢
    exact h.imp_right (Or.imp_right (Or.imp_right ih))
  | case2 first rest _ ih =>
    rcases List.mem_cons.mp h with rfl | h
    · exact List.mem_cons_self
    · exact List.mem_cons_of_mem _ (ih h)
  | case3 => cases h

theorem exists_infix_of_mem_tidyPiece (h : line ∈ tidyPiece piece) :
    ∃ part, part <:+: piece ∧ line = spaceIf part := by
  rw [tidyPiece] at h
  split at h
  · cases h
  · exact ⟨trim piece, trim_isInfix piece, List.mem_singleton.mp h⟩

/-- A line that is cut out is a part of the text, but for the space behind an `IF`. -/
theorem exists_infix_of_mem_cutStatementsAfter (h : line ∈ cutStatementsAfter held text) :
    ∃ part, part <:+: held.reverse ++ text ∧ line = spaceIf part := by
  -- What is held back stood in front of the text that is left.
  fun_induction cutStatementsAfter held text with
  | case1 held =>
    rw [List.append_nil]
    exact exists_infix_of_mem_tidyPiece h
  | case2 held rest ih =>
    have hsplit : held.reverse ++ ';' :: rest = (';' :: held).reverse ++ rest := by simp
    rw [hsplit]
    rcases List.mem_append.mp h with h | h
    · obtain ⟨part, hpart, hline⟩ := exists_infix_of_mem_tidyPiece h
      exact ⟨part, hpart.trans (List.prefix_append _ _).isInfix, hline⟩
    · obtain ⟨part, hpart, hline⟩ := ih h
      exact ⟨part, hpart.trans (List.suffix_append _ _).isInfix, hline⟩
  | case3 held c rest _ hbrace ih =>
    rcases List.mem_append.mp h with h | h
    · obtain ⟨part, hpart, hline⟩ := exists_infix_of_mem_tidyPiece h
      exact ⟨part, hpart.trans (List.prefix_append _ _).isInfix, hline⟩
    · rcases List.mem_cons.mp h with rfl | h
      · refine ⟨[c], ⟨held.reverse, rest, by simp⟩, ?_⟩
        rcases hbrace with rfl | rfl <;> rfl
      · obtain ⟨part, hpart, hline⟩ := ih h
        have hrest : rest <:+ held.reverse ++ c :: rest :=
          (List.suffix_cons c rest).trans (List.suffix_append _ _)
        exact ⟨part, hpart.trans hrest.isInfix, hline⟩
  | case4 held c rest _ _ ih =>
    have hsplit : held.reverse ++ c :: rest = (c :: held).reverse ++ rest := by simp
    rw [hsplit]
    exact ih h

/-- A logical line is a part of its physical line, with spaces put in. -/
theorem exists_infix_of_mem_cutStatements (h : line ∈ cutStatements text) :
    ∃ part, part <:+: text ∧ line = spaceIf part :=
  exists_infix_of_mem_cutStatementsAfter h

/-- The characters of a logical line stand in its physical line, except for spaces. -/
theorem mem_of_mem_cutStatements (hc : c ≠ ' ') (hline : line ∈ cutStatements text)
    (h : c ∈ line) : c ∈ text := by
  obtain ⟨part, hpart, rfl⟩ := exists_infix_of_mem_cutStatements hline
  exact hpart.subset (mem_of_mem_spaceIf hc h)

/-- No logical line holds a line feed. -/
theorem lineFeed_notMem_logicalLines (bytes : List UInt8) :
    ∀ line ∈ logicalLines bytes, '\n' ∉ line.text := by
  have hspace : '\n' ≠ ' ' := by decide
  rw [logicalLines_eq]
  refine forall_mem_logicalLinesFrom (P := ('\n' ∉ ·)) (fun line hline inside piece hpiece => ?_) 1
    false
  intro hmem
  exact not_mem_normalizeLine (not_mem_of_mem_pieces hline)
    (Comment.mem_of_mem_strip inside hspace (mem_of_mem_cutStatements hspace hpiece hmem))

end Lines

section Sections

variable {c : Char} {name text rest : Text}

theorem mem_of_afterWord? {word : String} (h : afterWord? word text = some rest) (hc : c ∈ rest) :
    c ∈ text := by
  rw [afterWord?] at h
  split at h
  · rename_i first behind hstem
    split at h
    · obtain rfl := Option.some.inj h
      rw [dropStem?_eq_some hstem]
      exact List.mem_append_right _ (List.mem_cons_of_mem _ (List.dropWhile_subset _ hc))
    · cases h
  · cases h

theorem mem_of_marker (h : Marker.of? text = some (.script name)) (hc : c ∈ name) : c ∈ text := by
  rw [Marker.of?] at h
  split at h
  · rename_i behind hafter
    obtain rfl := Marker.script.inj (Option.some.inj h)
    exact mem_of_afterWord? hafter (mem_of_mem_trim hc)
  · split at h
    · split at h <;> cases h
    · cases h

/-- The name of a section stands on one of the lines. -/
theorem exists_line_of_mem_sections {lines : List LogicalLine} {found : Section}
    (h : found ∈ sections lines) : ∃ line ∈ lines, ∀ c ∈ found.name, c ∈ line.text := by
  rw [sections] at h
  induction lines with
  | nil => cases h
  | cons line lines ih =>
    rw [splitSections] at h
    simp only at h
    split at h
    · rename_i name hmarker
      rcases List.mem_cons.mp h with rfl | h
      · exact ⟨line, List.mem_cons_self, fun c hc => mem_of_marker hmarker hc⟩
      · obtain ⟨found, hfound, hname⟩ := ih h
        exact ⟨found, List.mem_cons_of_mem _ hfound, hname⟩
    · obtain ⟨found, hfound, hname⟩ := ih h
      exact ⟨found, List.mem_cons_of_mem _ hfound, hname⟩
    · obtain ⟨found, hfound, hname⟩ := ih h
      exact ⟨found, List.mem_cons_of_mem _ hfound, hname⟩

/-- No name of a section goes beyond its line. -/
theorem lineFeed_notMem_name {bytes : List UInt8} {found : Section}
    (h : found ∈ sections (logicalLines bytes)) : '\n' ∉ found.name := by
  obtain ⟨line, hline, hname⟩ := exists_line_of_mem_sections h
  exact fun hmem => lineFeed_notMem_logicalLines bytes line hline (hname _ hmem)

end Sections

end SignalScript
