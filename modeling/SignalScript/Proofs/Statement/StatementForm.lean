import SignalScript.Proofs.Condition.ConditionForm
import SignalScript.Proofs.Expression.AssignmentForm
import SignalScript.Statement.Reading

/-!
# The form of statements

However the lines of a body are put together, and whatever does not fit and is passed over, the
statements that are read from them are made of well-formed assignments and conditions. The readers
call each other, and so do the proofs about them, on lines of less and less weight.

## Main definitions

* `Statement.WellFormed` — what is promised of a statement and of all that is nested in it

## Main results

* `wellFormed_readStatements` — what is read from the lines of a body keeps all promises
-/

namespace SignalScript

mutual

/-- What is promised of a statement. -/
inductive Statement.WellFormed (locals : List Text) : Statement → Prop
  | assign {assignment : Assignment} (h : assignment.WellFormed locals) :
    Statement.WellFormed locals (.assign assignment)
  | choose {first : Arm} (h : Arm.WellFormed locals first) :
    Statement.WellFormed locals (.choose first)

/-- What is promised of an arm. -/
inductive Arm.WellFormed (locals : List Text) : Arm → Prop
  | mk {condition : Condition} {body : List Statement} {otherwise : Alternative}
    (hcondition : Condition.WellFormed locals condition)
    (hbody : ∀ statement ∈ body, Statement.WellFormed locals statement)
    (hotherwise : Alternative.WellFormed locals otherwise) :
    Arm.WellFormed locals (.mk condition body otherwise)

/-- What is promised of what follows an arm. -/
inductive Alternative.WellFormed (locals : List Text) : Alternative → Prop
  | done : Alternative.WellFormed locals .done
  | always {body : List Statement}
    (hbody : ∀ statement ∈ body, Statement.WellFormed locals statement) :
    Alternative.WellFormed locals (.always body)
  | arm {next : Arm} (h : Arm.WellFormed locals next) : Alternative.WellFormed locals (.arm next)

end

theorem wellFormed_takeAssignment (locals : List Text) (first : LogicalLine)
    (lines : List LogicalLine) :
    ∀ statement ∈ (takeAssignment locals first lines).value, statement.WellFormed locals := by
  intro statement hstatement
  obtain ⟨assignment, hassignment, rfl⟩ := List.mem_map.mp hstatement
  exact .assign (Assignment.wellFormed_read (Option.mem_toList.mp hassignment))

theorem wellFormed_takeGuard (locals : List Text) (first : LogicalLine)
    (lines : List LogicalLine) :
    Condition.WellFormed locals (takeGuard locals first lines).value :=
  Condition.wellFormed_read locals _

section Weight

variable {first : LogicalLine} {text : Text}

/-- The lines of a block weigh less than those it is taken from, and so do the lines behind it. -/
theorem weight_takeBlock_lt (h : first.text = '{' :: text) (lines : List LogicalLine) :
    weight (takeBlock first.number 0 text first.number lines).inner < weight (first :: lines) ∧
      weight (takeBlock first.number 0 text first.number lines).rest < weight (first :: lines) := by
  have := (takeBlock first.number 0 text first.number lines).fits
  simp only [weight_cons, h, List.length_cons]
  omega

theorem weight_pushRest_lt {c : Char} (h : first.text = c :: text) (lines : List LogicalLine) :
    weight (pushRest text first.number lines) < weight (first :: lines) := by
  have := weight_pushRest_le text first.number lines
  simp only [weight_cons, h, List.length_cons]
  omega

end Weight

mutual

/-- What is read from the lines of a body keeps all promises. -/
theorem wellFormed_readStatements (locals : List Text) (lines : List LogicalLine) :
    ∀ statement ∈ (readStatements locals lines).value, statement.WellFormed locals := by
  cases lines with
  | nil => simp [readStatements]
  | cons first lines =>
    rw [readStatements.eq_def]
    simp only
    split
    · rename_i text htext
      have hblock := weight_takeBlock_lt htext lines
      exact List.forall_mem_append.mpr
        ⟨wellFormed_readStatements locals _, wellFormed_readStatements locals _⟩
    · rename_i text htext
      have hrest := weight_pushRest_lt htext lines
      exact wellFormed_readStatements locals _
    · split
      · have harm := (takeArm locals first lines).fits
        exact List.forall_mem_cons.mpr
          ⟨.choose (wellFormed_takeArm locals first lines), wellFormed_readStatements locals _⟩
      · split
        · exact wellFormed_readStatements locals lines
        · have hstatement := (takeAssignment locals first lines).fits
          exact List.forall_mem_append.mpr
            ⟨wellFormed_takeAssignment locals first lines, wellFormed_readStatements locals _⟩
termination_by 2 * weight lines + 1
decreasing_by
  all_goals
    simp only [weight_cons] at *
    omega

theorem wellFormed_takeBody (locals : List Text) (owner : Nat) (lines : List LogicalLine) :
    ∀ statement ∈ (takeBody locals owner lines).value, statement.WellFormed locals := by
  cases lines with
  | nil => simp [takeBody]
  | cons first lines =>
    rw [takeBody.eq_def]
    simp only
    split
    · rename_i text htext
      have hblock := weight_takeBlock_lt htext lines
      exact wellFormed_readStatements locals _
    · split
      · simp
      · split
        · exact List.forall_mem_singleton.mpr (.choose (wellFormed_takeArm locals first lines))
        · exact wellFormed_takeAssignment locals first lines
termination_by 2 * weight lines + 1
decreasing_by
  all_goals
    simp only [weight_cons] at *
    omega

theorem wellFormed_takeArm (locals : List Text) (first : LogicalLine) (lines : List LogicalLine) :
    (takeArm locals first lines).value.WellFormed locals := by
  rw [takeArm]
  have hguard := (takeGuard locals first lines).fits
  have hbody := (takeBody locals first.number (takeGuard locals first lines).rest).fits
  exact .mk (wellFormed_takeGuard locals first lines) (wellFormed_takeBody locals _ _)
    (wellFormed_takeAlternative locals _)
termination_by 2 * (first.text.length + 1 + weight lines)
decreasing_by
  all_goals omega

theorem wellFormed_takeAlternative (locals : List Text) (lines : List LogicalLine) :
    (takeAlternative locals lines).value.WellFormed locals := by
  cases lines with
  | nil =>
    rw [takeAlternative]
    exact .done
  | cons first lines =>
    rw [takeAlternative.eq_def]
    simp only
    split
    · cases lines with
      | nil => exact .always (wellFormed_takeBody locals first.number [])
      | cons next rest =>
        simp only
        split
        · exact .arm (wellFormed_takeArm locals next rest)
        · exact .always (wellFormed_takeBody locals first.number (next :: rest))
    · split
      · exact .arm (wellFormed_takeArm locals first lines)
      · split
        · rename_i text helse
          have hbehind := length_of_afterElse? helse
          have hrest := weight_pushRest_le text first.number lines
          split
          · exact .arm (wellFormed_takeArm locals ⟨text, first.number⟩ lines)
          · exact .always (wellFormed_takeBody locals first.number _)
        · exact .done
termination_by 2 * weight lines + 1
decreasing_by
  all_goals
    simp only [weight_cons] at *
    omega

end

end SignalScript
