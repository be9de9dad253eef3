import SignalScript.Proofs.Source.WholeText

/-!
# Reading lines loses nothing

Logical lines are made line by line: comments are taken out of each physical line, with a flag that
carries an open comment on to the next, and what is left is cut and trimmed. A scanner that goes
through the whole text one character at a time, and knows nothing of lines but where a comment ends
with one, finds the same characters in the same order on the same lines, blanks aside.

## Main definitions

* `numbered` — the characters of a text with the physical lines they stand on
* `Scanner`, `Scanner.uncommented` — the scanner, and the characters it finds outside comments
* `LogicalLine.placed` — the characters of a logical line with its number, without blanks

## Main results

* `uncommented_strip` — on one physical line the scanner finds what is left without comments
* `placed_logicalLines` — in a file it finds the characters of the logical lines
-/

namespace SignalScript

/-- A character with the number of the physical line it stands on. -/
abbrev PlacedChar := Char × Nat

/-- The characters of a text that begins on line `number`. A line feed is the last character of its
line. -/
def numbered (number : Nat) : Text → List PlacedChar
  | [] => []
  | c :: rest => (c, number) :: numbered (if c = '\n' then number + 1 else number) rest

/-- Where a scanner stands that goes through a text one character at a time. -/
inductive Scanner
  | outside
  /-- Behind a slash, on the given line, that may open a comment. -/
  | behindSlash (number : Nat)
  /-- In a comment that ends with its line. -/
  | inLine
  /-- In a comment that ends with a star and a slash. -/
  | inBlock
  /-- In such a comment, behind a star that may end it. -/
  | behindStar
  deriving DecidableEq, Repr

namespace Scanner

/-- The characters of a text that stand outside comments. -/
def uncommented : Scanner → List PlacedChar → List PlacedChar
  | behindSlash number, [] => [('/', number)]
  | _, [] => []
  | outside, (c, number) :: rest =>
    if c = '/' then uncommented (behindSlash number) rest
    else (c, number) :: uncommented outside rest
  | behindSlash slash, (c, number) :: rest =>
    if c = '/' then uncommented inLine rest
    else if c = '*' then uncommented inBlock rest
    else ('/', slash) :: (c, number) :: uncommented outside rest
  | inLine, (c, number) :: rest =>
    if c = '\n' then (c, number) :: uncommented outside rest else uncommented inLine rest
  | inBlock, (c, _) :: rest => uncommented (if c = '*' then behindStar else inBlock) rest
  | behindStar, (c, _) :: rest =>
    uncommented (if c = '/' then outside else if c = '*' then behindStar else inBlock) rest

/-- The scanner in front of a line that begins inside a comment if `inside` holds. -/
def start (inside : Bool) : Scanner := if inside then inBlock else outside

end Scanner

/-- The characters without the blanks. -/
def visible (chars : List PlacedChar) : List PlacedChar :=
  chars.filter fun placed => !Text.isBlank placed.1

/-- The characters of a text that stands on line `number`. -/
def onLine (number : Nat) (text : Text) : List PlacedChar := text.map (·, number)

@[simp] theorem visible_nil : visible [] = [] := rfl

@[simp] theorem visible_append (front back : List PlacedChar) :
    visible (front ++ back) = visible front ++ visible back := List.filter_append ..

theorem visible_cons (placed : PlacedChar) (chars : List PlacedChar) :
    visible (placed :: chars) = visible [placed] ++ visible chars := visible_append [placed] chars

theorem visible_cons_of_blank {c : Char} (h : Text.isBlank c = true) (number : Nat)
    (chars : List PlacedChar) : visible ((c, number) :: chars) = visible chars :=
  List.filter_cons_of_neg (by simp [h])

@[simp] theorem onLine_nil (number : Nat) : onLine number [] = [] := rfl

@[simp] theorem onLine_cons (number : Nat) (c : Char) (text : Text) :
    onLine number (c :: text) = (c, number) :: onLine number text := rfl

@[simp] theorem onLine_append (number : Nat) (front back : Text) :
    onLine number (front ++ back) = onLine number front ++ onLine number back := List.map_append

section Numbering

variable {number : Nat} {text : Text}

theorem numbered_append_of_not_mem (h : '\n' ∉ text) (number : Nat) (rest : Text) :
    numbered number (text ++ rest) = onLine number text ++ numbered number rest := by
  induction text with
  | nil => rfl
  | cons c text ih =>
    obtain ⟨hc, htext⟩ := List.ne_and_not_mem_of_not_mem_cons h
    rw [List.cons_append, numbered, if_neg (Ne.symm hc), ih htext, onLine_cons, List.cons_append]

theorem numbered_of_not_mem (h : '\n' ∉ text) (number : Nat) :
    numbered number text = onLine number text := by
  simpa [numbered] using numbered_append_of_not_mem h number []

end Numbering

/-! ### One physical line -/

namespace Scanner

variable {text : Text} {number : Nat} {rest : List PlacedChar}

/-- What follows is nothing or another line. -/
def EndsLine (rest : List PlacedChar) : Prop := ∀ placed ∈ rest.head?, placed.1 = '\n'

/-- A comment that ends with its line leaves the text behind it to the next line. -/
theorem visible_inLine (h : EndsLine rest) :
    visible (uncommented inLine rest) = visible (uncommented outside rest) := by
  match rest with
  | [] => rfl
  | (c, number) :: rest =>
    obtain rfl : c = '\n' := h _ rfl
    simp [uncommented]

theorem uncommented_inLine (h : '\n' ∉ text) (number : Nat) (rest : List PlacedChar) :
    uncommented inLine (onLine number text ++ rest) = uncommented inLine rest := by
  induction text with
  | nil => rfl
  | cons c text ih =>
    obtain ⟨hc, htext⟩ := List.ne_and_not_mem_of_not_mem_cons h
    rw [onLine_cons, List.cons_append, uncommented, if_neg (Ne.symm hc), ih htext]

/-- A star ends nothing unless a slash is next. -/
theorem uncommented_behindStar (h : ∀ placed ∈ rest.head?, placed.1 ≠ '/') :
    uncommented behindStar rest = uncommented inBlock rest := by
  match rest with
  | [] => rfl
  | (c, number) :: rest => simp [uncommented, h (c, number) rfl]

/-- A slash stands for itself unless a slash or star is next. -/
theorem uncommented_behindSlash (h : ∀ placed ∈ rest.head?, placed.1 ≠ '/' ∧ placed.1 ≠ '*') :
    uncommented (behindSlash number) rest = ('/', number) :: uncommented outside rest := by
  match rest with
  | [] => rfl
  | (c, number) :: rest =>
    obtain ⟨hslash, hstar⟩ := h (c, number) rfl
    simp [uncommented, hslash, hstar]

/-- The first character of a line, or of what follows an empty one, is none that `text` does not
begin with. -/
theorem head?_onLine_append_ne {c : Char} (hc : c ≠ '\n') (htext : text.head? ≠ some c)
    (hrest : EndsLine rest) (number : Nat) :
    ∀ placed ∈ (onLine number text ++ rest).head?, placed.1 ≠ c := by
  intro placed hplaced
  cases text with
  | nil =>
    rw [hrest placed hplaced]
    exact Ne.symm hc
  | cons d text =>
    obtain rfl := Option.some.inj hplaced
    exact fun hd => htext (congrArg some hd)

/-- On one physical line the scanner finds what is left of the line without its comments, and goes
on where the line ends. -/
theorem uncommented_strip (inside : Bool) (text : Text) (h : '\n' ∉ text) (number : Nat)
    (hrest : EndsLine rest) :
    visible (uncommented (start inside) (onLine number text ++ rest)) =
      visible (onLine number (Comment.strip inside text).text) ++
        visible (uncommented (start (Comment.strip inside text).isOpen) rest) := by
  fun_induction Comment.strip inside text with
  | case1 text ih =>
    -- The comment is closed; the blank it leaves does not count.
    have htext : '\n' ∉ text := by simpa using h
    have hscan : uncommented (start true) (onLine number ('*' :: '/' :: text) ++ rest) =
        uncommented (start false) (onLine number text ++ rest) := by
      simp [start, uncommented]
    rw [hscan, ih htext]
    simp only [Comment.Uncommented.cons, onLine_cons]
    rw [visible_cons_of_blank rfl]
  | case2 c text hopen ih =>
    have htext : '\n' ∉ text := fun hmem => h (List.mem_cons_of_mem _ hmem)
    have hscan : uncommented (start true) (onLine number (c :: text) ++ rest) =
        uncommented (start true) (onLine number text ++ rest) := by
      by_cases hc : c = '*'
      · have hnext : text.head? ≠ some '/' := by
          intro hhead
          obtain ⟨tail, rfl⟩ := List.head?_eq_some_iff.mp hhead
          exact hopen tail hc rfl
        rw [onLine_cons, List.cons_append, start, if_pos rfl, uncommented, if_pos hc]
        exact uncommented_behindStar (head?_onLine_append_ne (by decide) hnext hrest number)
      · rw [onLine_cons, List.cons_append, start, if_pos rfl, uncommented, if_neg hc]
    rw [hscan, ih htext]
  | case3 => rfl
  | case4 text =>
    have htext : '\n' ∉ text := by simpa using h
    have hscan : uncommented (start false) (onLine number ('/' :: '/' :: text) ++ rest) =
        uncommented inLine rest := by
      rw [← uncommented_inLine htext number rest]
      simp [start, uncommented]
    rw [hscan]
    exact visible_inLine hrest
  | case5 text ih =>
    have htext : '\n' ∉ text := by simpa using h
    have hscan : uncommented (start false) (onLine number ('/' :: '*' :: text) ++ rest) =
        uncommented (start true) (onLine number text ++ rest) := by
      simp [start, uncommented]
    rw [hscan, ih htext]
  | case6 c text hline hblock ih =>
    have htext : '\n' ∉ text := fun hmem => h (List.mem_cons_of_mem _ hmem)
    have hscan : uncommented (start false) (onLine number (c :: text) ++ rest) =
        (c, number) :: uncommented (start false) (onLine number text ++ rest) := by
      by_cases hc : c = '/'
      · -- The slash opens nothing, so it is found when the next character is seen.
        have hslash : text.head? ≠ some '/' := by
          intro hhead
          obtain ⟨tail, rfl⟩ := List.head?_eq_some_iff.mp hhead
          exact hline tail hc rfl
        have hstar : text.head? ≠ some '*' := by
          intro hhead
          obtain ⟨tail, rfl⟩ := List.head?_eq_some_iff.mp hhead
          exact hblock tail hc rfl
        rw [onLine_cons, List.cons_append, start, if_neg Bool.false_ne_true, uncommented,
          if_pos hc, hc]
        exact uncommented_behindSlash fun placed hplaced =>
          ⟨head?_onLine_append_ne (by decide) hslash hrest number placed hplaced,
            head?_onLine_append_ne (by decide) hstar hrest number placed hplaced⟩
      · rw [onLine_cons, List.cons_append, start, if_neg Bool.false_ne_true, uncommented,
          if_neg hc]
    rw [hscan, visible_cons, ih htext, Comment.Uncommented.cons, onLine_cons,
      visible_cons (c, number) (onLine number _), List.append_assoc]
  | case7 => rfl

end Scanner

/-! ### Cutting and tidying -/

namespace Text

/-- The text with all its blanks deleted. -/
def withoutBlanks (text : Text) : Text := text.filter fun c => !isBlank c

@[simp] theorem withoutBlanks_nil : withoutBlanks [] = [] := rfl

@[simp] theorem withoutBlanks_append (front back : Text) :
    withoutBlanks (front ++ back) = withoutBlanks front ++ withoutBlanks back :=
  List.filter_append ..

theorem withoutBlanks_cons (c : Char) (text : Text) :
    withoutBlanks (c :: text) = withoutBlanks [c] ++ withoutBlanks text :=
  withoutBlanks_append [c] text

theorem withoutBlanks_eq_nil {text : Text} (h : ∀ c ∈ text, isBlank c = true) :
    withoutBlanks text = [] :=
  List.filter_eq_nil_iff.mpr fun c hc => by simp [h c hc]

/-- Trimming takes away blanks and nothing else. -/
@[simp] theorem withoutBlanks_trim (text : Text) :
    withoutBlanks (trim text) = withoutBlanks text := by
  obtain ⟨front, hfront, htext⟩ := exists_append_trimStart text
  obtain ⟨back, hback, hstart⟩ := exists_trimEnd_append (trimStart text)
  calc withoutBlanks (trim text)
      = withoutBlanks front ++ (withoutBlanks (trim text) ++ withoutBlanks back) := by
        rw [withoutBlanks_eq_nil hfront, withoutBlanks_eq_nil hback, List.append_nil,
          List.nil_append]
    _ = withoutBlanks (front ++ (trim text ++ back)) := by
        rw [withoutBlanks_append, withoutBlanks_append]
    _ = withoutBlanks text := by
        rw [trim, ← hstart, ← htext]

end Text

section Cutting

open Text

/-- The space put behind `IF` is a blank. -/
theorem withoutBlanks_spaceIf (text : Text) :
    withoutBlanks (spaceIf text) = withoutBlanks text := by
  fun_induction spaceIf text with
  | case1 rest ih =>
    have hspace : withoutBlanks ('I' :: 'F' :: ' ' :: '(' :: spaceIf rest) =
        withoutBlanks "IF(".toList ++ withoutBlanks (spaceIf rest) := rfl
    rw [hspace, ih, ← withoutBlanks_append]
    rfl
  | case2 c rest _ ih => rw [withoutBlanks_cons, ih, ← withoutBlanks_cons]
  | case3 => rfl

theorem withoutBlanks_tidyPiece (piece : Text) :
    (tidyPiece piece).flatMap withoutBlanks = withoutBlanks piece := by
  rw [tidyPiece, ← withoutBlanks_trim piece]
  split
  · rename_i hempty
    rw [List.isEmpty_iff.mp hempty]
    rfl
  · rw [List.flatMap_singleton, withoutBlanks_spaceIf]

/-- Cutting a text loses and adds nothing but blanks. -/
theorem withoutBlanks_cutStatementsAfter (held text : Text) :
    (cutStatementsAfter held text).flatMap withoutBlanks =
      withoutBlanks (held.reverse ++ text) := by
  induction text generalizing held with
  | nil => rw [cutStatementsAfter, withoutBlanks_tidyPiece, List.append_nil]
  | cons c rest ih =>
    rw [cutStatementsAfter]
    split
    · rw [List.flatMap_append, withoutBlanks_tidyPiece, ih, List.reverse_cons, List.reverse_nil,
        List.nil_append, ← withoutBlanks_append, List.append_assoc, List.singleton_append]
    · split
      · rw [List.flatMap_append, List.flatMap_cons, withoutBlanks_tidyPiece, ih, List.reverse_nil,
          List.nil_append, ← withoutBlanks_cons, ← withoutBlanks_append]
      · rw [ih, List.reverse_cons, List.append_assoc, List.singleton_append]

/-- Cutting a line into pieces loses blanks and nothing else. -/
theorem withoutBlanks_cutStatements (text : Text) :
    (cutStatements text).flatMap withoutBlanks = withoutBlanks text :=
  withoutBlanks_cutStatementsAfter [] text

end Cutting

/-! ### Whole files -/

section Files

open Scanner Text

/-- The characters of the line with its number, without the blanks. -/
def LogicalLine.placed (line : LogicalLine) : List PlacedChar :=
  onLine line.number (withoutBlanks line.text)

/-- Of a text on one line, all but the blanks can be seen. -/
theorem visible_onLine (number : Nat) (text : Text) :
    visible (onLine number text) = onLine number (withoutBlanks text) :=
  List.filter_map ..

/-- The space that takes the place of a tab. -/
def untab (c : Char) : Char := if c = '\t' then ' ' else c

theorem untab_eq_iff {d : Char} (htab : d ≠ '\t') (hspace : d ≠ ' ') (c : Char) :
    untab c = d ↔ c = d := by
  rw [untab]
  split
  · rename_i hc
    rw [hc]
    exact ⟨fun h => absurd h.symm hspace, fun h => absurd h.symm htab⟩
  · rfl

/-- Tabs and spaces are on the same lines. -/
theorem numbered_untab (number : Nat) (text : Text) :
    numbered number (text.map untab) = (numbered number text).map (Prod.map untab id) := by
  induction text generalizing number with
  | nil => rfl
  | cons c text ih =>
    have hfeed : untab c = '\n' ↔ c = '\n' := untab_eq_iff (by decide) (by decide) c
    rw [List.map_cons, numbered, numbered, List.map_cons, ih]
    simp only [hfeed]
    rfl

theorem visible_cons_untab (c : Char) (number : Nat) {chars chars' : List PlacedChar}
    (h : visible chars = visible chars') :
    visible ((untab c, number) :: chars) = visible ((c, number) :: chars') := by
  by_cases htab : c = '\t'
  · rw [htab, visible_cons_of_blank rfl, visible_cons_of_blank rfl, h]
  · rw [untab, if_neg htab, visible_cons, h, ← visible_cons]

/-- Tabs stand for spaces, inside comments and outside. -/
theorem visible_uncommented_untab (scanner : Scanner) (chars : List PlacedChar) :
    visible (uncommented scanner (chars.map (Prod.map untab id))) =
      visible (uncommented scanner chars) := by
  -- A tab is none of the characters that the scanner looks at, and neither is a space.
  have hslash (c : Char) : untab c = '/' ↔ c = '/' := untab_eq_iff (by decide) (by decide) c
  have hstar (c : Char) : untab c = '*' ↔ c = '*' := untab_eq_iff (by decide) (by decide) c
  have hfeed (c : Char) : untab c = '\n' ↔ c = '\n' := untab_eq_iff (by decide) (by decide) c
  induction chars generalizing scanner with
  | nil => rfl
  | cons placed chars ih =>
    obtain ⟨c, number⟩ := placed
    cases scanner with
    | outside =>
      simp only [List.map_cons, Prod.map_apply, id, uncommented, hslash]
      split
      · exact ih _
      · exact visible_cons_untab c number (ih _)
    | behindSlash slash =>
      simp only [List.map_cons, Prod.map_apply, id, uncommented, hslash, hstar]
      split
      · exact ih _
      · split
        · exact ih _
        · rw [visible_cons, visible_cons_untab c number (ih _), ← visible_cons]
    | inLine =>
      simp only [List.map_cons, Prod.map_apply, id, uncommented, hfeed]
      split
      · exact visible_cons_untab c number (ih _)
      · exact ih _
    | inBlock =>
      simp only [List.map_cons, Prod.map_apply, id, uncommented, hstar]
      exact ih _
    | behindStar =>
      simp only [List.map_cons, Prod.map_apply, id, uncommented, hslash, hstar]
      exact ih _

theorem not_mem_normalizeLine {line : Text} (h : '\n' ∉ line) : '\n' ∉ normalizeLine line := by
  intro hmem
  obtain ⟨c, hc, hfeed⟩ := List.mem_map.mp hmem
  rw [(untab_eq_iff (by decide) (by decide) c).mp hfeed] at hc
  exact not_mem_upper h hc

theorem map_untab_upper_joinedBy (lines : List Text) :
    (upper (joinedBy ['\n'] lines)).map untab = joinedBy ['\n'] (lines.map normalizeLine) := by
  induction lines with
  | nil => rfl
  | cons line rest ih =>
    cases rest with
    | nil => rfl
    | cons next rest =>
      rw [joinedBy_cons (List.cons_ne_nil _ _), upper_append, upper_append, List.map_append,
        List.map_append, ih]
      exact (joinedBy_cons (List.cons_ne_nil _ _) _).symm

/-- The characters of the lines that are cut out of a physical line stand on it. -/
theorem placed_cutStatements (number : Nat) (text : Text) :
    ((cutStatements text).map (LogicalLine.mk · number)).flatMap LogicalLine.placed =
      visible (onLine number text) := by
  rw [visible_onLine, ← withoutBlanks_cutStatements, List.flatMap_map, onLine, List.map_flatMap]
  rfl

/-- A line feed ends a line comment at most. -/
theorem visible_start_lineFeed (inside : Bool) (number : Nat) (chars : List PlacedChar) :
    visible (uncommented (start inside) (('\n', number) :: chars)) =
      visible (uncommented (start inside) chars) := by
  cases inside with
  | true => rfl
  | false => exact visible_cons_of_blank rfl number _

/-- The logical lines of physical lines hold what a scanner finds in them when they stand under one
another. -/
theorem placed_logicalLinesFrom {lines : List Text} (hlines : ∀ line ∈ lines, '\n' ∉ line)
    (number : Nat) (inside : Bool) :
    (logicalLinesFrom number inside lines).flatMap LogicalLine.placed =
      visible (uncommented (start inside)
        (numbered number (joinedBy ['\n'] (lines.map normalizeLine)))) := by
  induction lines generalizing number inside with
  | nil => cases inside <;> rfl
  | cons line rest ih =>
    obtain ⟨hline, hrest⟩ := List.forall_mem_cons.mp hlines
    have hfree := not_mem_normalizeLine hline
    rw [logicalLinesFrom, List.flatMap_append, placed_cutStatements]
    cases rest with
    | nil =>
      -- The last line has no line feed behind it, and needs none.
      have hend : EndsLine [] := by simp [EndsLine]
      have hstrip := uncommented_strip inside _ hfree number hend
      rw [List.append_nil] at hstrip
      rw [List.map_singleton, joinedBy, numbered_of_not_mem hfree, hstrip]
      cases (Comment.strip inside (normalizeLine line)).isOpen <;> rfl
    | cons next rest =>
      -- The line feed behind the line is what closes a comment that runs to its end.
      have hjoin : joinedBy ['\n'] ((line :: next :: rest).map normalizeLine) =
          normalizeLine line ++ '\n' :: joinedBy ['\n'] ((next :: rest).map normalizeLine) :=
        joinedBy_cons (List.cons_ne_nil _ _) _
      rw [ih hrest, hjoin, numbered_append_of_not_mem hfree, numbered, if_pos rfl,
        uncommented_strip inside _ hfree number (by simp [EndsLine]), visible_start_lineFeed]

/-- Blanks aside, the logical lines of a file hold its text in capitals without the comments, in
order and nothing twice, and every character stands on a logical line with the number of its
physical line. -/
theorem placed_logicalLines (bytes : List UInt8) :
    (logicalLines bytes).flatMap LogicalLine.placed =
      visible (uncommented .outside (numbered 1 (upper (sourceText bytes)))) := by
  have hlines : ∀ line ∈ physicalLines (sourceText bytes), '\n' ∉ line :=
    fun _ => not_mem_of_mem_pieces
  have hjoin : (upper (sourceText bytes)).map untab =
      joinedBy ['\n'] ((physicalLines (sourceText bytes)).map normalizeLine) := by
    rw [← map_untab_upper_joinedBy, physicalLines, joinedBy_pieces]
  calc (logicalLines bytes).flatMap LogicalLine.placed
      = (logicalLinesFrom 1 false (physicalLines (sourceText bytes))).flatMap
          LogicalLine.placed := by rw [logicalLines_eq]
    _ = visible (uncommented (start false) (numbered 1
          (joinedBy ['\n'] ((physicalLines (sourceText bytes)).map normalizeLine)))) :=
        placed_logicalLinesFrom hlines 1 false
    _ = visible (uncommented .outside
          ((numbered 1 (upper (sourceText bytes))).map (Prod.map untab id))) := by
        rw [← hjoin, numbered_untab]
        rfl
    _ = visible (uncommented .outside (numbered 1 (upper (sourceText bytes)))) :=
        visible_uncommented_untab _ _

end Files

end SignalScript
