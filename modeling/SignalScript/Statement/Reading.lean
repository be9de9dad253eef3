import SignalScript.Statement
import SignalScript.Statement.Boundary
import SignalScript.Condition.Reading
import SignalScript.Expression.Assignment

/-!
# Structuring the body of a script

The flat lines of a body become a tree of statements. A block in braces stands for its
statements. The body of an arm is a block or a single statement, and an `ELSE` belongs to the
nearest arm in front of it that can take it. Whatever does not fit is reported and passed over.

The readers call each other on lines of less and less weight: every arm uses up its head, every
block its brace.

## Main definitions

* `readStatements` — the statements of a list of lines
* `takeBody` — the body of an arm
* `takeArm` — an arm with everything that belongs to it
* `takeAlternative` — what follows the body of an arm
-/

namespace SignalScript

/-- Reads the assignment that begins with line `first`. -/
def takeAssignment (locals : List Text) (first : LogicalLine) (lines : List LogicalLine) :
    Taken (List Statement) (first.text.length + weight lines) :=
  let statement := takeStatement first.text first.number lines
  let assignment := (Assignment.read locals first.number statement.value).atLine first.number
  { value := assignment.value.toList.map .assign
    problems := statement.problems ++ assignment.notes
    rest := statement.rest
    fits := statement.fits }

/-- Reads the condition of the arm that begins with line `first`. -/
def takeGuard (locals : List Text) (first : LogicalLine) (lines : List LogicalLine) :
    Taken Condition (first.text.length + weight lines) :=
  let head := takeCondition first.text first.number lines
  let condition := (Condition.read locals head.value).atLine first.number
  { value := condition.value
    problems := head.problems ++ condition.notes
    rest := head.rest
    fits := head.fits }

/-- What stands behind `ELSE` and blanks, if the line is an `ELSE` with more text. -/
def afterElse? (text : Text) : Option Text :=
  (Text.dropStem? "ELSE ".toList text).map Text.trimStart

theorem length_of_afterElse? {text rest : Text} (h : afterElse? text = some rest) :
    rest.length + 5 ≤ text.length := by
  obtain ⟨behind, hb, rfl⟩ := Option.map_eq_some_iff.mp h
  have := Text.length_trimStart_le behind
  rw [Text.dropStem?_eq_some hb]
  simp
  omega

theorem length_lt_of_afterElse? {text rest : Text} (h : afterElse? text = some rest) :
    rest.length < text.length := by
  have := length_of_afterElse? h
  omega

/-- What a block leaves takes no more room than the line that opens it and those behind it. -/
theorem Block.weight_rest_le {first : LogicalLine} {text : Text} {lines : List LogicalLine}
    (block : Block (text.length + 1 + weight lines)) (h : first.text = '{' :: text) :
    weight block.rest ≤ weight (first :: lines) := by
  have := block.fits
  simp only [weight_cons, h, List.length_cons]
  omega

mutual

/-- The statements of a list of lines. -/
def readStatements (locals : List Text) (lines : List LogicalLine) :
    Reported (List Statement) :=
  match lines with
  | [] => ⟨[], []⟩
  | first :: lines =>
    match _htext : first.text with
    | '{' :: text =>
      -- A block that belongs to no arm counts as the statements in it.
      let block := takeBlock first.number 0 text first.number lines
      let inner := readStatements locals block.inner
      let later := readStatements locals block.rest
      ⟨inner.value ++ later.value, block.problems ++ inner.notes ++ later.notes⟩
    | '}' :: text =>
      let later := readStatements locals (pushRest text first.number lines)
      ⟨later.value, ⟨first.number, .strayBrace⟩ :: later.notes⟩
    | _ =>
      if isIf first.text then
        let arm := takeArm locals first lines
        let later := readStatements locals arm.rest
        ⟨.choose arm.value :: later.value, arm.problems ++ later.notes⟩
      else if isElse first.text then
        -- Only the line is passed over; a body behind it is read like any other statement.
        let later := readStatements locals lines
        ⟨later.value, ⟨first.number, .strayElse first.text⟩ :: later.notes⟩
      else
        let statement := takeAssignment locals first lines
        let later := readStatements locals statement.rest
        ⟨statement.value ++ later.value, statement.problems ++ later.notes⟩
termination_by 2 * weight lines + 1
decreasing_by
  · have := (takeBlock first.number 0 text first.number lines).fits
    simp only [weight_cons, _htext, List.length_cons]
    omega
  · have := (takeBlock first.number 0 text first.number lines).fits
    simp only [weight_cons, _htext, List.length_cons]
    omega
  · have := weight_pushRest_le text first.number lines
    simp only [weight_cons, _htext, List.length_cons]
    omega
  · simp only [weight_cons]
    omega
  · have := arm.fits
    change 2 * weight arm.rest + 1 < 2 * (first.text.length + 1 + weight lines) + 1
    omega
  · simp only [weight_cons]
    omega
  · have := (takeAssignment locals first lines).fits
    simp only [weight_cons]
    omega

/-- The body of an arm or `ELSE` that stands on line `owner`: a block, or one statement. -/
def takeBody (locals : List Text) (owner : Nat) (lines : List LogicalLine) :
    Taken (List Statement) (weight lines) :=
  match lines with
  | [] => ⟨[], [⟨owner, .missingBody⟩], [], Nat.le_refl _⟩
  | first :: lines =>
    match htext : first.text with
    | '{' :: text =>
      let block := takeBlock first.number 0 text first.number lines
      let inner := readStatements locals block.inner
      { value := inner.value
        problems := block.problems ++ inner.notes
        rest := block.rest
        fits := block.weight_rest_le htext }
    | _ =>
      if startsWithBrace first.text || isElse first.text then
        -- The line stays: it may close a block or continue the arms.
        ⟨[], [⟨owner, .missingBody⟩], first :: lines, Nat.le_refl _⟩
      else if isIf first.text then
        let arm := takeArm locals first lines
        { value := [.choose arm.value]
          problems := arm.problems
          rest := arm.rest
          fits := le_weight_cons arm.fits }
      else
        let statement := takeAssignment locals first lines
        { value := statement.value
          problems := statement.problems
          rest := statement.rest
          fits := le_weight_cons statement.fits }
termination_by 2 * weight lines + 1
decreasing_by
  · have := (takeBlock first.number 0 text first.number lines).fits
    simp only [weight_cons, htext, List.length_cons]
    omega
  · simp only [weight_cons]
    omega

/-- The arm that begins with line `first`, with all that belongs to it. -/
def takeArm (locals : List Text) (first : LogicalLine) (lines : List LogicalLine) :
    Taken Arm (first.text.length + weight lines) :=
  let condition := takeGuard locals first lines
  let body := takeBody locals first.number condition.rest
  let otherwise := takeAlternative locals body.rest
  { value := .mk condition.value body.value otherwise.value
    problems := condition.problems ++ body.problems ++ otherwise.problems
    rest := otherwise.rest
    fits := Nat.le_trans otherwise.fits (Nat.le_trans body.fits condition.fits) }
termination_by 2 * (first.text.length + 1 + weight lines)
decreasing_by
  · have := (takeGuard locals first lines).fits
    omega
  · have := Nat.le_trans body.fits condition.fits
    change 2 * weight body.rest + 1 < _
    omega

/-- What follows the body of an arm: a further arm, an `ELSE`, or nothing. -/
def takeAlternative (locals : List Text) (lines : List LogicalLine) :
    Taken Alternative (weight lines) :=
  match lines with
  | [] => ⟨.done, [], [], Nat.le_refl _⟩
  | first :: lines =>
    if first.text = "ELSE".toList then
      -- An `IF` on the next line is a further arm, as if the two lines were one.
      match lines with
      | next :: rest =>
        if isIf next.text then
          let arm := takeArm locals next rest
          { value := .arm arm.value
            problems := arm.problems
            rest := arm.rest
            fits := le_weight_cons (Nat.le_trans (le_weight_cons arm.fits) (Nat.le_add_left _ _)) }
        else
          let body := takeBody locals first.number (next :: rest)
          { value := .always body.value
            problems := body.problems
            rest := body.rest
            fits := le_weight_cons (Nat.le_trans body.fits (Nat.le_add_left _ _)) }
      | [] =>
        let body := takeBody locals first.number []
        { value := .always body.value
          problems := body.problems
          rest := body.rest
          fits := le_weight_cons (Nat.le_trans body.fits (Nat.le_add_left _ _)) }
    else if "ELSEIF".toList.isPrefixOf first.text then
      let arm := takeArm locals first lines
      { value := .arm arm.value
        problems := arm.problems
        rest := arm.rest
        fits := le_weight_cons arm.fits }
    else
      match helse : afterElse? first.text with
      | some text =>
        if isIf text then
          let arm := takeArm locals ⟨text, first.number⟩ lines
          { value := .arm arm.value
            problems := arm.problems
            rest := arm.rest
            fits := le_weight_cons (Nat.le_trans arm.fits
              (Nat.add_le_add_right (Nat.le_of_lt (length_lt_of_afterElse? helse)) _)) }
        else
          let body := takeBody locals first.number (pushRest text first.number lines)
          { value := .always body.value
            problems := body.problems
            rest := body.rest
            fits := le_weight_cons (Nat.le_trans body.fits
              (weight_pushRest_of_lt (length_lt_of_afterElse? helse) _ _)) }
      | none => ⟨.done, [], first :: lines, Nat.le_refl _⟩
termination_by 2 * weight lines + 1
decreasing_by
  · simp only [weight_cons]
    omega
  · simp only [weight_cons]
    omega
  · simp only [weight_cons]
    omega
  · simp only [weight_cons]
    omega
  · have := length_of_afterElse? helse
    simp only [weight_cons]
    omega
  · have := length_of_afterElse? helse
    have := weight_pushRest_le text first.number lines
    simp only [weight_cons]
    omega

end

end SignalScript
