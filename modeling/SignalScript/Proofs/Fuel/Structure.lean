import SignalScript.Proofs.Fuel.Boundary
import SignalScript.Proofs.Fuel.Chain
import SignalScript.Proofs.Fuel.Condition
import SignalScript.Proofs.Statement.StatementForm

/-!
# Structuring within fuel

The readers of a body hand lines on to each other. Some join lines, cut them and put text back, and
some give a line back as it was; but a reader that keeps its lines hands them to one that does not,
and text put back stands for at least one character that is gone. Twice the weight of the lines in
hand, and one more for the readers that may keep them, bounds all readers and all their loops.

## Main definitions

* `Request`, `Request.measure` — what readers ask each other for, and the measure of it
* `structuring` — answers one request, when someone else answers those that come up
* `readStatementsWithin` — the statements of a list of lines, within some fuel

## Main results

* `readStatementsWithin_eq` — fuel above the measure of the lines is enough, whatever they hold
-/

namespace SignalScript

/-- What the readers of a body ask each other for. -/
inductive Request
  | statements (lines : List LogicalLine)
  | body (owner : Nat) (lines : List LogicalLine)
  | arm (first : LogicalLine) (lines : List LogicalLine)
  | alternative (lines : List LogicalLine)

namespace Request

/-- An answer holds what was read, and the lines behind it except where all are read. -/
abbrev Answer : Request → Type
  | .statements _ => List Statement
  | .body _ _ => List Statement × List LogicalLine
  | .arm _ _ => Arm × List LogicalLine
  | .alternative _ => Alternative × List LogicalLine

/-- Twice the weight of the lines in hand. An arm takes its head at once, and so is no more than the
readers that ask for it. -/
def measure : Request → Nat
  | .statements lines | .body _ lines | .alternative lines => 2 * weight lines + 1
  | .arm first lines => 2 * (first.text.length + 1 + weight lines)

/-- The answer that the readers give. -/
def answer (locals : List Text) : (request : Request) → Reported request.Answer
  | .statements lines => readStatements locals lines
  | .body owner lines => (takeBody locals owner lines).reported
  | .arm first lines => (takeArm locals first lines).reported
  | .alternative lines => (takeAlternative locals lines).reported

end Request

section Structuring

variable (fuel : Nat) (locals : List Text)

/-- The causes noted on one line become problems of that line. -/
def Limited.atLine {α : Type} (limited : Limited Cause α) (line : Nat) : Limited Problem α :=
  limited.mapNotes (⟨line, ·⟩)

/-- Reads an assignment within some fuel. -/
def takeAssignmentWithin (first : LogicalLine) (lines : List LogicalLine) :
    Limited Problem (List Statement × List LogicalLine) := do
  let (text, rest) ← takeStatementWithin fuel first.text first.number lines
  let assignment ← (Assignment.readWithin fuel locals first.number text).atLine first.number
  pure (assignment.toList.map .assign, rest)

/-- Reads the condition of an arm within some fuel. -/
def takeGuardWithin (first : LogicalLine) (lines : List LogicalLine) :
    Limited Problem (Condition × List LogicalLine) := do
  let (head, rest) ← takeConditionWithin fuel first.text first.number lines
  let condition ← (Condition.readWithin fuel locals head).atLine first.number
  pure (condition, rest)

/-- Reads statements until no lines are left. -/
def readingStatements (self : (request : Request) → Limited Problem request.Answer) :
    List LogicalLine → Limited Problem (List Statement)
  | [] => pure []
  | first :: lines =>
    match first.text with
    | '{' :: text => do
      let (block, rest) ← takeBlockWithin fuel text first.number lines first.number 0
      let inner ← self (.statements block)
      let later ← self (.statements rest)
      pure (inner ++ later)
    | '}' :: text => do
      Limited.done (note ⟨first.number, .strayBrace⟩)
      self (.statements (pushRest text first.number lines))
    | _ =>
      if isIf first.text then do
        let (arm, rest) ← self (.arm first lines)
        let later ← self (.statements rest)
        pure (.choose arm :: later)
      else if isElse first.text then do
        Limited.done (note ⟨first.number, .strayElse first.text⟩)
        self (.statements lines)
      else do
        let (statement, rest) ← takeAssignmentWithin fuel locals first lines
        let later ← self (.statements rest)
        pure (statement ++ later)

/-- Reads the body of an arm. -/
def takingBody (self : (request : Request) → Limited Problem request.Answer) (owner : Nat) :
    List LogicalLine → Limited Problem (List Statement × List LogicalLine)
  | [] => .done ⟨([], []), [⟨owner, .missingBody⟩]⟩
  | first :: lines =>
    match first.text with
    | '{' :: text => do
      let (block, rest) ← takeBlockWithin fuel text first.number lines first.number 0
      let inner ← self (.statements block)
      pure (inner, rest)
    | _ =>
      if startsWithBrace first.text || isElse first.text then
        .done ⟨([], first :: lines), [⟨owner, .missingBody⟩]⟩
      else if isIf first.text then do
        let (arm, rest) ← self (.arm first lines)
        pure ([.choose arm], rest)
      else takeAssignmentWithin fuel locals first lines

/-- Reads an arm with all that belongs to it. -/
def takingArm (self : (request : Request) → Limited Problem request.Answer) (first : LogicalLine)
    (lines : List LogicalLine) : Limited Problem (Arm × List LogicalLine) := do
  let (condition, behind) ← takeGuardWithin fuel locals first lines
  let (body, rest) ← self (.body first.number behind)
  let (otherwise, rest) ← self (.alternative rest)
  pure (.mk condition body otherwise, rest)

/-- Reads what follows the body of an arm. -/
def takingAlternative (self : (request : Request) → Limited Problem request.Answer) :
    List LogicalLine → Limited Problem (Alternative × List LogicalLine)
  | [] => pure (.done, [])
  | first :: lines =>
    if first.text = "ELSE".toList then
      match lines with
      | next :: rest =>
        if isIf next.text then do
          let (arm, rest) ← self (.arm next rest)
          pure (.arm arm, rest)
        else do
          let (body, rest) ← self (.body first.number (next :: rest))
          pure (.always body, rest)
      | [] => do
        let (body, rest) ← self (.body first.number [])
        pure (.always body, rest)
    else if "ELSEIF".toList.isPrefixOf first.text then do
      let (arm, rest) ← self (.arm first lines)
      pure (.arm arm, rest)
    else
      match afterElse? first.text with
      | some text =>
        -- What stands behind the word is put back on a line of its own.
        if isIf text then do
          let (arm, rest) ← self (.arm ⟨text, first.number⟩ lines)
          pure (.arm arm, rest)
        else do
          let (body, rest) ← self (.body first.number (pushRest text first.number lines))
          pure (.always body, rest)
      | none => pure (.done, first :: lines)

/-- Answers a request, when `self` answers those that come up. -/
def structuring : Procedure Problem Request Request.Answer := fun self request =>
  match request with
  | .statements lines => readingStatements fuel locals self lines
  | .body owner lines => takingBody fuel locals self owner lines
  | .arm first lines => takingArm fuel locals self first lines
  | .alternative lines => takingAlternative self lines

/-- The statements of a list of lines, within some fuel. -/
def readStatementsWithin (lines : List LogicalLine) : Limited Problem (List Statement) :=
  (structuring fuel locals).within fuel (.statements lines)

end Structuring

/-! ### Enough fuel -/

section Enough

variable {fuel owner : Nat} {locals : List Text} {first : LogicalLine} {lines : List LogicalLine}
  {self : (request : Request) → Limited Problem request.Answer}

/-- An assignment is taken within fuel that is enough for its text and all lines behind it. -/
theorem takeAssignmentWithin_eq (h : first.text.length + weight lines < fuel) :
    takeAssignmentWithin fuel locals first lines =
      .done (takeAssignment locals first lines).reported := by
  have hlines := length_le_weight lines
  -- The text of the statement is made of the lines it takes, so fuel for these is enough to read
  -- it.
  have htext : (takeStatement first.text first.number lines).value.length ≤ _ :=
    length_takeStatement_le
  rw [takeAssignmentWithin, takeStatementWithin_eq (by omega), Limited.done_bind_eq]
  simp only [Taken.reported]
  rw [Assignment.readWithin_eq (by omega)]
  simp [Limited.atLine, takeAssignment, Noted.atLine]

/-- So is the head of an arm. -/
theorem takeGuardWithin_eq (h : first.text.length + weight lines < fuel) :
    takeGuardWithin fuel locals first lines =
      .done (takeGuard locals first lines).reported := by
  have hlines := length_le_weight lines
  have htext : (takeCondition first.text first.number lines).value.length ≤ _ :=
    length_takeCondition_le
  rw [takeGuardWithin, takeConditionWithin_eq (by omega), Limited.done_bind_eq]
  simp only [Taken.reported]
  rw [Condition.readWithin_eq (by omega)]
  simp [Limited.atLine, takeGuard, Noted.atLine]

theorem isStructural_eq_false_iff {text : Text} : isStructural text = false ↔
    (startsWithBrace text = false ∧ isIf text = false) ∧ isElse text = false := by
  rw [isStructural, Bool.or_eq_false_iff, Bool.or_eq_false_iff]

theorem not_opening {text : Text} (h : startsWithBrace text = false) (rest : Text) :
    text ≠ '{' :: rest := by
  rintro rfl
  cases h

/-- A line that begins with no brace is an `IF`, an `ELSE` or a statement. -/
theorem readingStatements_line (h : startsWithBrace first.text = false) :
    readingStatements fuel locals self (first :: lines) =
      (if isIf first.text then do
        let (arm, rest) ← self (.arm first lines)
        let later ← self (.statements rest)
        pure (.choose arm :: later)
      else if isElse first.text then do
        Limited.done (note ⟨first.number, .strayElse first.text⟩)
        self (.statements lines)
      else do
        let (statement, rest) ← takeAssignmentWithin fuel locals first lines
        let later ← self (.statements rest)
        pure (statement ++ later)) := by
  rw [readingStatements]
  split
  · rename_i htext
    exact absurd htext (not_opening h _)
  · rename_i htext
    simp [htext, startsWithBrace] at h
  · rfl

/-- A body that is no block is a single statement, or is missing. -/
theorem takingBody_line (h : ∀ text, first.text ≠ '{' :: text) :
    takingBody fuel locals self owner (first :: lines) =
      if startsWithBrace first.text || isElse first.text then
        .done ⟨([], first :: lines), [⟨owner, .missingBody⟩]⟩
      else if isIf first.text then do
        let (arm, rest) ← self (.arm first lines)
        pure ([.choose arm], rest)
      else takeAssignmentWithin fuel locals first lines := by
  rw [takingBody]
  split
  · rename_i htext
    exact absurd htext (h _)
  · rfl

theorem ne_else_of_joined {text : Text} (h : "ELSEIF".toList.isPrefixOf text = true) :
    text ≠ "ELSE".toList := by
  rintro rfl
  exact absurd h (by decide)

theorem else_forms_of_false {text : Text} (h : isElse text = false) :
    text ≠ "ELSE".toList ∧ ¬ "ELSEIF".toList.isPrefixOf text = true ∧ afterElse? text = none := by
  simp only [isElse, Bool.or_eq_false_iff, decide_eq_false_iff_not] at h
  obtain ⟨⟨hself, hspaced⟩, hjoined⟩ := h
  exact ⟨hself, Bool.eq_false_iff.mp hjoined, afterElse?_eq_none hspaced⟩

/-- The word `ELSE` with text behind it is none of the other two forms. -/
theorem else_forms_of_after {text rest : Text} (h : afterElse? text = some rest) :
    text ≠ "ELSE".toList ∧ ¬ "ELSEIF".toList.isPrefixOf text = true := by
  obtain ⟨behind, hstem, -⟩ := Option.map_eq_some_iff.mp h
  obtain rfl := Text.dropStem?_eq_some hstem
  exact ⟨by simp, by simp [List.isPrefixOf]⟩

/-- Statements are structured if all shorter jobs are done as they should. -/
theorem readingStatements_eq (hfuel : weight lines < fuel)
    (hself : ∀ inner, inner.measure < 2 * weight lines + 1 →
      self inner = .done (inner.answer locals)) :
    readingStatements fuel locals self lines = .done (readStatements locals lines) := by
  have hstatements (inner : List LogicalLine) (h : weight inner < weight lines) :
      self (.statements inner) = .done (readStatements locals inner) :=
    hself (.statements inner) (by simp only [Request.measure]; omega)
  match lines with
  | [] =>
    rw [readingStatements, readStatements_nil]
    rfl
  | first :: lines =>
    have hweight := weight_cons first lines
    cases lineForm first.text with
    | opening text h =>
      have hlines := length_le_weight lines
      -- The lines in the block and those behind it weigh less than all with the braces.
      obtain ⟨hinner, hrest⟩ := weight_takeBlock_lt h lines
      rw [readStatements_brace h, readingStatements, h]
      simp only
      rw [takeBlockWithin_eq (by omega), Limited.done_bind_eq]
      simp only [Block.reported]
      rw [hstatements _ hinner, hstatements _ hrest]
      simp
    | closing text h =>
      rw [readStatements_stray h, readingStatements, h]
      simp only
      rw [hstatements _ (weight_pushRest_lt h lines)]
      rfl
    | choice hbrace hif _ =>
      have hrest := (takeArm locals first lines).fits
      have harm : self (.arm first lines) = .done (takeArm locals first lines).reported :=
        hself (.arm first lines) (by simp only [Request.measure]; omega)
      rw [readStatements_if hbrace hif, readingStatements_line hbrace, if_pos hif, harm,
        Limited.done_bind_eq]
      simp only [Taken.reported]
      rw [hstatements (takeArm locals first lines).rest (by omega)]
      simp
    | alternative hbrace hif helse =>
      rw [readStatements_else hbrace hif helse, readingStatements_line hbrace,
        if_neg (Bool.eq_false_iff.mp hif), if_pos helse, hstatements lines (by omega)]
      rfl
    | sentence h =>
      obtain ⟨⟨hbrace, hif⟩, helse⟩ := isStructural_eq_false_iff.mp h
      have hrest := (takeAssignment locals first lines).fits
      rw [readStatements_statement h, readingStatements_line hbrace,
        if_neg (Bool.eq_false_iff.mp hif), if_neg (Bool.eq_false_iff.mp helse),
        takeAssignmentWithin_eq (by omega), Limited.done_bind_eq]
      simp only [Taken.reported]
      rw [hstatements (takeAssignment locals first lines).rest (by omega)]
      simp

/-- So is a body. -/
theorem takingBody_eq (hfuel : weight lines < fuel)
    (hself : ∀ inner, inner.measure < 2 * weight lines + 1 →
      self inner = .done (inner.answer locals)) :
    takingBody fuel locals self owner lines = .done (takeBody locals owner lines).reported := by
  match lines with
  | [] => rw [takingBody, Taken.reported_of_parts takeBody_nil]
  | first :: lines =>
    have hweight := weight_cons first lines
    cases lineForm first.text with
    | opening text h =>
      have hlines := length_le_weight lines
      obtain ⟨hinner, -⟩ := weight_takeBlock_lt h lines
      have hblock : self (.statements (takeBlock first.number 0 text first.number lines).inner) =
          .done (readStatements locals _) :=
        hself (.statements _) (by simp only [Request.measure]; omega)
      rw [Taken.reported_of_parts (takeBody_brace h), takingBody, h]
      simp only
      rw [takeBlockWithin_eq (by omega), Limited.done_bind_eq]
      simp only [Block.reported]
      rw [hblock]
      simp
    | closing text h =>
      have hopen (text : Text) : first.text ≠ '{' :: text := by simp [h]
      have hmissing : (startsWithBrace first.text || isElse first.text) = true := by
        simp [h, startsWithBrace]
      rw [Taken.reported_of_parts (takeBody_missing hopen hmissing),
        takingBody_line hopen, if_pos hmissing]
    | choice hbrace hif helse =>
      have harm : self (.arm first lines) = .done (takeArm locals first lines).reported :=
        hself (.arm first lines) (by simp only [Request.measure]; omega)
      rw [Taken.reported_of_parts (takeBody_if hbrace helse hif),
        takingBody_line (not_opening hbrace), if_neg (by simp [hbrace, helse]), if_pos hif, harm]
      simp [Taken.reported]
    | alternative hbrace hif helse =>
      have hmissing : (startsWithBrace first.text || isElse first.text) = true := by simp [helse]
      rw [Taken.reported_of_parts (takeBody_missing (not_opening hbrace) hmissing),
        takingBody_line (not_opening hbrace), if_pos hmissing]
    | sentence h =>
      obtain ⟨⟨hbrace, hif⟩, helse⟩ := isStructural_eq_false_iff.mp h
      rw [Taken.reported_eq_of_parts_eq (takeBody_statement h),
        takingBody_line (not_opening hbrace), if_neg (by simp [hbrace, helse]),
        if_neg (Bool.eq_false_iff.mp hif),
        takeAssignmentWithin_eq (by omega)]

/-- So is an arm. -/
theorem takingArm_eq (hfuel : first.text.length + weight lines < fuel)
    (hself : ∀ inner, inner.measure < 2 * (first.text.length + 1 + weight lines) →
      self inner = .done (inner.answer locals)) :
    takingArm fuel locals self first lines = .done (takeArm locals first lines).reported := by
  -- No part of an arm leaves more than it was given, so each next part is within the measure.
  have hguard := (takeGuard locals first lines).fits
  have hbodyFits := (takeBody locals first.number (takeGuard locals first lines).rest).fits
  have hbody : self (.body first.number (takeGuard locals first lines).rest) =
      .done (takeBody locals first.number _).reported :=
    hself (.body _ _) (by simp only [Request.measure]; omega)
  have hotherwise : self (.alternative
        (takeBody locals first.number (takeGuard locals first lines).rest).rest) =
      .done (takeAlternative locals _).reported :=
    hself (.alternative _) (by simp only [Request.measure]; omega)
  rw [Taken.reported_of_parts takeArm_parts, takingArm, takeGuardWithin_eq hfuel,
    Limited.done_bind_eq]
  simp only [Taken.reported]
  rw [hbody, Limited.done_bind_eq]
  simp only [Taken.reported]
  rw [hotherwise]
  simp [Taken.reported]

/-- So is what stands behind an arm. -/
theorem takingAlternative_eq
    (hself : ∀ inner, inner.measure < 2 * weight lines + 1 →
      self inner = .done (inner.answer locals)) :
    takingAlternative self lines = .done (takeAlternative locals lines).reported := by
  have harm {first : LogicalLine} {rest : List LogicalLine}
      (h : first.text.length + 1 + weight rest ≤ weight lines) :
      self (.arm first rest) = .done (takeArm locals first rest).reported :=
    hself (.arm first rest) (by simp only [Request.measure]; omega)
  have hbody {owner : Nat} {rest : List LogicalLine} (h : weight rest < weight lines) :
      self (.body owner rest) = .done (takeBody locals owner rest).reported :=
    hself (.body owner rest) (by simp only [Request.measure]; omega)
  match lines with
  | [] =>
    rw [takingAlternative, Taken.reported_of_parts takeAlternative_nil]
    rfl
  | first :: lines =>
    have hweight := weight_cons first lines
    cases helse : isElse first.text with
    | false =>
      obtain ⟨hself, hjoined, hafter⟩ := else_forms_of_false helse
      rw [Taken.reported_of_parts (takeAlternative_done helse), takingAlternative.eq_def]
      simp only
      rw [if_neg hself, if_neg hjoined, hafter]
      rfl
    | true =>
      rcases else_cases helse with h | h | ⟨text, h⟩
      · cases lines with
        | nil =>
          rw [Taken.reported_of_parts (takeAlternative_always_end h), takingAlternative, if_pos h,
            hbody (by rw [weight_nil]; omega)]
          simp [Taken.reported]
        | cons next rest =>
          cases hnext : isIf next.text with
          | true =>
            rw [Taken.reported_of_parts (takeAlternative_stacked h hnext), takingAlternative,
              if_pos h, if_pos hnext, harm (by simp only [weight_cons]; omega)]
            simp [Taken.reported]
          | false =>
            rw [Taken.reported_of_parts (takeAlternative_always_next h hnext), takingAlternative,
              if_pos h, if_neg (Bool.eq_false_iff.mp hnext), hbody (by omega)]
            simp [Taken.reported]
      · rw [Taken.reported_of_parts (takeAlternative_joined h), takingAlternative.eq_def]
        simp only
        rw [if_neg (ne_else_of_joined h), if_pos h, harm (by omega)]
        simp [Taken.reported]
      · -- Behind the word, at least its five characters are used up.
        obtain ⟨hself, hjoined⟩ := else_forms_of_after h
        have hlength := length_of_afterElse? h
        have hpush := weight_pushRest_le text first.number lines
        rw [takingAlternative.eq_def]
        simp only
        rw [if_neg hself, if_neg hjoined, h]
        simp only
        by_cases hif : isIf text = true
        · rw [Taken.reported_of_parts ((takeAlternative_after h).trans (if_pos hif)), if_pos hif,
            harm (by simp only; omega)]
          simp [Taken.reported]
        · rw [Taken.reported_of_parts ((takeAlternative_after h).trans (if_neg hif)), if_neg hif,
            hbody (by omega)]
          simp [Taken.reported]

/-- Fuel above the measure of the lines is enough to read them, whatever they hold. -/
theorem readStatementsWithin_eq (h : 2 * weight lines + 1 < fuel) :
    readStatementsWithin fuel locals lines = .done (readStatements locals lines) := by
  refine Procedure.within_eq (Request.answer locals) Request.measure ?_ (.statements lines) h h
  -- One case for each request; the bound of the procedure is the fuel of its parts.
  rintro (lines | ⟨owner, lines⟩ | ⟨first, lines⟩ | lines) self hbound hself
  · exact readingStatements_eq (by simp only [Request.measure] at hbound; omega) hself
  · exact takingBody_eq (by simp only [Request.measure] at hbound; omega) hself
  · exact takingArm_eq (by simp only [Request.measure] at hbound; omega) hself
  · exact takingAlternative_eq hself

end Enough

end SignalScript
