import SignalScript.Proofs.Source.WholeText
import SignalScript.Source.Section

/-!
# One file behind another

Bytes that are put behind a line feed are read as they would be alone, on later lines: nothing that
was read before them is pending but a comment that is still open. If they begin with a marker, the
sections of both parts stay apart as well.

## Main definitions

* `hasUtf16Mark`, `hasUtf8Mark` — the byte order marks that a file can begin with
* `AreWholeLines` — the file is empty or its last byte is a line feed
* `isOpenBehind`, `leavesCommentOpen` — a block comment goes on behind physical lines, behind a file
* `LogicalLine.renumbered`, `Section.renumbered` — the same with other line numbers
* `startsWithMarker` — the first of some logical lines is a marker

## Main results

* `exists_sourceText_append` — the text of two files is the text of one and then of the other
* `logicalLines_append` — and so are their logical lines, those of the second further down
* `sections_append` — lines that begin with a marker leave the sections in front of them alone
-/

namespace SignalScript

/-! ### Bytes -/

/-- The bytes begin with a byte order mark of UTF-16. -/
def hasUtf16Mark (bytes : List UInt8) : Bool :=
  [0xFF, 0xFE].isPrefixOf bytes || [0xFE, 0xFF].isPrefixOf bytes

/-- The bytes begin with a byte order mark of UTF-8. -/
def hasUtf8Mark (bytes : List UInt8) : Bool := [0xEF, 0xBB, 0xBF].isPrefixOf bytes

/-- The bytes are none, or the last of them is a line feed. -/
def AreWholeLines (bytes : List UInt8) : Prop := bytes = [] ∨ ∃ front, bytes = front ++ [10]

section Bytes

variable {front back : List UInt8}

/-- A stem without `c` that begins a text begins what stands in front of `c`. -/
theorem isPrefixOf_append_cons {α : Type} [BEq α] [LawfulBEq α] {c : α} {stem : List α}
    (h : c ∉ stem) (front back : List α) :
    stem.isPrefixOf (front ++ c :: back) = stem.isPrefixOf front := by
  induction stem generalizing front with
  | nil => rfl
  | cons d stem ih =>
    obtain ⟨hd, hstem⟩ := List.ne_and_not_mem_of_not_mem_cons h
    cases front with
    | nil => simp [List.isPrefixOf, Ne.symm hd]
    | cons e front => rw [List.cons_append, List.isPrefixOf, List.isPrefixOf, ih hstem]

theorem ofBytes_of_no_mark (h16 : hasUtf16Mark back = false) (h8 : hasUtf8Mark back = false) :
    Encoding.ofBytes back = (.utf8, back) := by
  rw [Encoding.ofBytes.eq_def]
  split
  · simp [hasUtf8Mark] at h8
  · simp [hasUtf16Mark] at h16
  · simp [hasUtf16Mark] at h16
  · rfl

/-- What is put behind a line feed makes no difference to the byte order mark. -/
theorem exists_ofBytes_append (h16 : hasUtf16Mark (front ++ [10]) = false) :
    ∃ stored, stored.count 10 = front.count 10 ∧
      ∀ back, Encoding.ofBytes (front ++ 10 :: back) = (.utf8, stored ++ 10 :: back) := by
  by_cases h8 : hasUtf8Mark front = true
  · obtain ⟨stored, rfl⟩ := List.isPrefixOf_iff_prefix.mp h8
    exact ⟨stored, rfl, fun back => rfl⟩
  · refine ⟨front, rfl, fun back => ofBytes_of_no_mark ?_ ?_⟩
    · rw [hasUtf16Mark, isPrefixOf_append_cons (by decide), isPrefixOf_append_cons (by decide)] at *
      exact h16
    · rw [hasUtf8Mark, isPrefixOf_append_cons (by decide)]
      exact Bool.eq_false_iff.mpr h8

/-- The text of whole lines with more behind them is the text of each; the last of the lines ends
with a line feed, and the others with those of the bytes. -/
theorem exists_sourceText_append (hfront : hasUtf16Mark (front ++ [10]) = false) :
    ∃ text : Text, text.count '\n' = front.count 10 ∧ sourceText (front ++ [10]) = text ++ ['\n'] ∧
      ∀ back, hasUtf16Mark back = false → hasUtf8Mark back = false →
        sourceText (front ++ 10 :: back) = text ++ '\n' :: sourceText back := by
  obtain ⟨stored, hcount, hstored⟩ := exists_ofBytes_append hfront
  obtain ⟨text, htext⟩ := Utf8.exists_decodeLossy_append stored
  have hself : sourceText (front ++ [10]) = text ++ ['\n'] := by
    simp only [sourceText, hstored, Encoding.decode, htext]
    rfl
  refine ⟨text, ?_, hself, fun back h16 h8 => ?_⟩
  · have hfeeds := Utf8.count_decodeLossy (stored ++ [10])
    rw [htext, List.count_append, List.count_append, hcount] at hfeeds
    simpa [Utf8.decodeLossy, Utf8.decode, Utf8.decodeFrom] using hfeeds
  · simp only [sourceText, hstored, ofBytes_of_no_mark h16 h8, Encoding.decode]
    exact htext back

end Bytes

/-! ### Logical lines -/

/-- The line with another number. -/
def LogicalLine.renumbered (f : Nat → Nat) (line : LogicalLine) : LogicalLine :=
  { line with number := f line.number }

/-- A block comment goes on behind physical lines, the first of which begins inside one if `inside`
holds. -/
def isOpenBehind (inside : Bool) (lines : List Text) : Bool :=
  lines.foldl (fun inside line => (Comment.strip inside (normalizeLine line)).isOpen) inside

/-- A block comment goes on behind the end of a file. -/
def leavesCommentOpen (bytes : List UInt8) : Bool :=
  isOpenBehind false (physicalLines (sourceText bytes))

section Lines

variable {number : Nat} {inside : Bool} {front back : List Text}

/-- The lines behind others are read from their own number on, in a comment if one is still open. -/
theorem logicalLinesFrom_append (number : Nat) (inside : Bool) (front back : List Text) :
    logicalLinesFrom number inside (front ++ back) =
      logicalLinesFrom number inside front ++
        logicalLinesFrom (number + front.length) (isOpenBehind inside front) back := by
  induction front generalizing number inside with
  | nil => rfl
  | cons line front ih =>
    rw [List.cons_append, logicalLinesFrom, logicalLinesFrom, ih, List.append_assoc,
      List.length_cons, Nat.add_right_comm, ← Nat.add_assoc]
    rfl

/-- Further down in a file, lines have higher numbers. -/
theorem logicalLinesFrom_add (number distance : Nat) (inside : Bool) (lines : List Text) :
    logicalLinesFrom (number + distance) inside lines =
      (logicalLinesFrom number inside lines).map (LogicalLine.renumbered (· + distance)) := by
  induction lines generalizing number inside with
  | nil => rfl
  | cons line lines ih =>
    rw [logicalLinesFrom, logicalLinesFrom, List.map_append, List.map_map, Nat.add_right_comm, ih]
    rfl

end Lines

section Files

variable {front back : List UInt8}

/-- The lines of a file with more whole lines behind them are the lines of both; those of the second
have their numbers counted on. -/
theorem logicalLines_append (hwhole : AreWholeLines front) (hfront : hasUtf16Mark front = false)
    (hopen : leavesCommentOpen front = false) (h16 : hasUtf16Mark back = false)
    (h8 : hasUtf8Mark back = false) :
    logicalLines (front ++ back) =
      logicalLines front ++
        (logicalLines back).map (LogicalLine.renumbered (· + front.count 10)) := by
  rcases hwhole with rfl | ⟨front, rfl⟩
  · have hsame : LogicalLine.renumbered (· + ([] : List UInt8).count 10) = id := rfl
    rw [hsame, List.map_id]
    rfl
  · obtain ⟨text, hcount, hself, htext⟩ := exists_sourceText_append hfront
    -- The last physical line of the front is the empty one behind its last line feed.
    have hlines : physicalLines (sourceText (front ++ [10])) = physicalLines text ++ [[]] := by
      rw [hself]
      exact Text.pieces_append text []
    have hlast (number : Nat) (inside : Bool) : logicalLinesFrom number inside [[]] = [] := by
      cases inside <;> rfl
    have hlength : (physicalLines text).length = (front ++ [10]).count 10 := by
      rw [physicalLines, Text.length_pieces, hcount, List.count_append]
      rfl
    have hempty (inside : Bool) : isOpenBehind inside [[]] = inside := by
      cases inside <;> rfl
    have hclosed : isOpenBehind false (physicalLines text) = false :=
      calc isOpenBehind false (physicalLines text)
          = isOpenBehind (isOpenBehind false (physicalLines text)) [[]] := (hempty _).symm
        _ = isOpenBehind false (physicalLines text ++ [[]]) := (List.foldl_append ..).symm
        _ = false := by rw [← hlines]; exact hopen
    have hboth : physicalLines (sourceText (front ++ [10] ++ back)) =
        physicalLines text ++ physicalLines (sourceText back) := by
      rw [List.append_assoc, List.singleton_append, htext back h16 h8]
      exact Text.pieces_append text _
    have hself : logicalLines (front ++ [10]) = logicalLinesFrom 1 false (physicalLines text) := by
      rw [logicalLines_eq, hlines, logicalLinesFrom_append, hlast, List.append_nil]
    rw [logicalLines_eq, hboth, logicalLinesFrom_append, hclosed, hlength, logicalLinesFrom_add,
      hself, logicalLines_eq]

end Files

/-! ### Sections -/

/-- The first of the lines is a marker. -/
def startsWithMarker (lines : List LogicalLine) : Prop :=
  ∃ first rest, lines = first :: rest ∧ (Marker.of? first.text).isSome = true

/-- The section with other line numbers. -/
def Section.renumbered (f : Nat → Nat) (script : Section) : Section :=
  ⟨script.name, f script.number, script.lines.map (LogicalLine.renumbered f)⟩

theorem splitSections_marker {lines : List LogicalLine} (h : startsWithMarker lines) :
    (splitSections lines).1 = [] := by
  obtain ⟨first, rest, rfl, hmarker⟩ := h
  obtain ⟨marker, hmarker⟩ := Option.isSome_iff_exists.mp hmarker
  rw [splitSections, hmarker]
  cases marker <;> rfl

/-- Lines that begin with a marker end the section in front of them and leave it alone. -/
theorem splitSections_append (front : List LogicalLine) {back : List LogicalLine}
    (h : startsWithMarker back) :
    splitSections (front ++ back) =
      ((splitSections front).1, (splitSections front).2 ++ (splitSections back).2) := by
  induction front with
  | nil => exact Prod.ext (splitSections_marker h) rfl
  | cons line front ih =>
    rw [List.cons_append, splitSections, ih, splitSections]
    dsimp only
    split <;> rfl

/-- A marker ends the last section in front of it. -/
theorem sections_append (front : List LogicalLine) {back : List LogicalLine}
    (h : startsWithMarker back) : sections (front ++ back) = sections front ++ sections back :=
  congrArg Prod.snd (splitSections_append front h)

theorem splitSections_renumbered (f : Nat → Nat) (lines : List LogicalLine) :
    splitSections (lines.map (LogicalLine.renumbered f)) =
      ((splitSections lines).1.map (LogicalLine.renumbered f),
        (splitSections lines).2.map (Section.renumbered f)) := by
  induction lines with
  | nil => rfl
  | cons line lines ih =>
    rw [List.map_cons, splitSections, ih, splitSections]
    dsimp only [LogicalLine.renumbered]
    split <;> rfl

/-- Sections are found without a look at the numbers of lines. -/
theorem sections_renumbered (f : Nat → Nat) (lines : List LogicalLine) :
    sections (lines.map (LogicalLine.renumbered f)) =
      (sections lines).map (Section.renumbered f) :=
  congrArg Prod.snd (splitSections_renumbered f lines)

end SignalScript
