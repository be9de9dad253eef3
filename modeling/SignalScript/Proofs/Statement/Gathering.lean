import SignalScript.Proofs.Statement.Causes
import SignalScript.Proofs.Statement.StatementForm
import SignalScript.Proofs.Statement.Steps

/-!
# What a body is made of

Structuring moves lines about and makes nothing up: every assignment and every condition in the
statements of a body was read from a text of its own, and every cause noted lies in the text of the
script. So what holds of all that can be read from one text holds throughout a body.

## Main definitions

* `Statement.All` — all assignments and conditions in a statement are such
* `Assignment.IsRead`, `Condition.IsRead` — what can be read from one text

## Main results

* `isRead_readStatements` — all that is in a body was read from a text
* `isOfText_readStatements` — the causes noted in a body lie in its text
-/

namespace SignalScript

mutual

/-- All assignments and all conditions in the statement are such. -/
inductive Statement.All (P : Assignment → Prop) (Q : Condition → Prop) : Statement → Prop
  | assign {assignment : Assignment} (h : P assignment) : Statement.All P Q (.assign assignment)
  | choose {first : Arm} (h : Arm.All P Q first) : Statement.All P Q (.choose first)

/-- All assignments and all conditions in the arm are such. -/
inductive Arm.All (P : Assignment → Prop) (Q : Condition → Prop) : Arm → Prop
  | mk {condition : Condition} {body : List Statement} {otherwise : Alternative}
    (hcondition : Q condition) (hbody : ∀ statement ∈ body, Statement.All P Q statement)
    (hotherwise : Alternative.All P Q otherwise) : Arm.All P Q (.mk condition body otherwise)

/-- All assignments and all conditions in what follows an arm are such. -/
inductive Alternative.All (P : Assignment → Prop) (Q : Condition → Prop) : Alternative → Prop
  | done : Alternative.All P Q .done
  | always {body : List Statement} (hbody : ∀ statement ∈ body, Statement.All P Q statement) :
    Alternative.All P Q (.always body)
  | arm {next : Arm} (h : Arm.All P Q next) : Alternative.All P Q (.arm next)

end

/-- The assignment was read from a text. -/
def Assignment.IsRead (locals : List Text) (assignment : Assignment) : Prop :=
  ∃ line text, (Assignment.read locals line text).value = some assignment

/-- The condition was read from a text. -/
def Condition.IsRead (locals : List Text) (condition : Condition) : Prop :=
  ∃ head, (Condition.read locals head).value = condition

/-- All that is in the statement was read from a text. -/
abbrev Statement.IsRead (locals : List Text) : Statement → Prop :=
  Statement.All (Assignment.IsRead locals) (Condition.IsRead locals)

/-- All that is in the arm was read from a text. -/
abbrev Arm.IsRead (locals : List Text) : Arm → Prop :=
  Arm.All (Assignment.IsRead locals) (Condition.IsRead locals)

/-- All that is in what follows an arm was read from a text. -/
abbrev Alternative.IsRead (locals : List Text) : Alternative → Prop :=
  Alternative.All (Assignment.IsRead locals) (Condition.IsRead locals)

/-- The problem lies in the text of a script. -/
def Problem.IsOfText (problem : Problem) : Prop := problem.cause.IsOfText

/-- What was taken is such, and the problems met on the way lie in the text. -/
structure Taken.Gathers {α : Type} {room : Nat} (V : α → Prop) (taken : Taken α room) : Prop where
  value : V taken.value
  problems : ∀ problem ∈ taken.problems, problem.IsOfText

theorem Taken.Gathers.of_parts {α : Type} {room : Nat} {V : α → Prop} {taken : Taken α room}
    {value : α} {problems : List Problem} {rest : List LogicalLine}
    (h : taken.parts = (value, problems, rest)) (hvalue : V value)
    (hproblems : ∀ problem ∈ problems, problem.IsOfText) : taken.Gathers V where
  value := by
    rw [show taken.value = value from congrArg Prod.fst h]
    exact hvalue
  problems := by
    rw [show taken.problems = problems from congrArg (fun parts => parts.2.1) h]
    exact hproblems

/-- A single problem of the structure lies in the text. -/
theorem isOfText_single {line : Nat} {cause : Cause} (h : cause.kind = .structural) :
    ∀ problem ∈ [Problem.mk line cause], problem.IsOfText :=
  List.forall_mem_singleton.mpr (.inl h)

theorem isOfText_atLine {causes : List Cause} (h : ∀ cause ∈ causes, cause.IsOfText) (line : Nat) :
    ∀ problem ∈ causes.map (Problem.mk line), problem.IsOfText :=
  List.forall_mem_map.mpr h

/-! ### Boundaries -/

section Boundaries

variable (text : Text) (number : Nat) (lines : List LogicalLine)

theorem isOfText_takeStatement :
    ∀ problem ∈ (takeStatement text number lines).problems, problem.IsOfText := by
  fun_induction takeStatement text number lines with
  | case1 => simp
  | case2 => exact isOfText_single rfl
  | case3 text hcut next rest hnext taken ih => exact ih
  | case4 => exact isOfText_single rfl

theorem isOfText_takeCondition :
    ∀ problem ∈ (takeCondition text number lines).problems, problem.IsOfText := by
  fun_induction takeCondition text number lines with
  | case1 => simp
  | case2 => exact isOfText_single rfl
  | case3 text hcut next rest hnext taken ih => exact ih
  | case4 => exact isOfText_single rfl

theorem isOfText_takeBlock (start depth : Nat) :
    ∀ problem ∈ (takeBlock start depth text number lines).problems, problem.IsOfText := by
  fun_induction takeBlock start depth text number lines with
  | case1 => simp
  | case2 => exact isOfText_single rfl
  | case3 depth text number kept depth' hscan next rest block ih => exact ih

end Boundaries

/-! ### Readers of lines -/

section Readers

variable (locals : List Text)

theorem gathers_takeAssignment (first : LogicalLine) (lines : List LogicalLine) :
    (takeAssignment locals first lines).Gathers fun statements =>
      ∀ statement ∈ statements, statement.IsRead locals := by
  refine .of_parts takeAssignment_parts (fun statement hstatement => ?_)
    (List.forall_mem_append.mpr ⟨isOfText_takeStatement _ _ _,
      isOfText_atLine (Assignment.isOfText_read locals _ _) _⟩)
  obtain ⟨assignment, hassignment, rfl⟩ := List.mem_map.mp hstatement
  exact .assign ⟨_, _, Option.mem_toList.mp hassignment⟩

theorem gathers_takeGuard (first : LogicalLine) (lines : List LogicalLine) :
    (takeGuard locals first lines).Gathers (Condition.IsRead locals) :=
  .of_parts takeGuard_parts ⟨_, rfl⟩ (List.forall_mem_append.mpr ⟨isOfText_takeCondition _ _ _,
    isOfText_atLine (Condition.isOfText_read locals _) _⟩)

mutual

/-- All that is in a body was read from its lines, and all causes noted lie in them. -/
theorem gathers_readStatements (lines : List LogicalLine) :
    (∀ statement ∈ (readStatements locals lines).value, statement.IsRead locals) ∧
      ∀ problem ∈ (readStatements locals lines).notes, problem.IsOfText := by
  cases lines with
  | nil => simp
  | cons first lines =>
    cases lineForm first.text with
    | opening text h =>
      have hfits := weight_takeBlock_lt h lines
      have hinner := gathers_readStatements (takeBlock first.number 0 text first.number lines).inner
      have hlater := gathers_readStatements (takeBlock first.number 0 text first.number lines).rest
      rw [readStatements_brace h]
      exact ⟨List.forall_mem_append.mpr ⟨hinner.1, hlater.1⟩, List.forall_mem_append.mpr
        ⟨List.forall_mem_append.mpr ⟨isOfText_takeBlock _ _ _ _ _, hinner.2⟩, hlater.2⟩⟩
    | closing text h =>
      have hfits := weight_pushRest_lt h lines
      have hlater := gathers_readStatements (pushRest text first.number lines)
      rw [readStatements_stray h]
      exact ⟨hlater.1, List.forall_mem_cons.mpr ⟨.inl rfl, hlater.2⟩⟩
    | choice hbrace hif _ =>
      have hfits := (takeArm locals first lines).fits
      have harm := gathers_takeArm first lines
      have hlater := gathers_readStatements (takeArm locals first lines).rest
      rw [readStatements_if hbrace hif]
      exact ⟨List.forall_mem_cons.mpr ⟨.choose harm.value, hlater.1⟩,
        List.forall_mem_append.mpr ⟨harm.problems, hlater.2⟩⟩
    | alternative hbrace hif helse =>
      have hlater := gathers_readStatements lines
      rw [readStatements_else hbrace hif helse]
      exact ⟨hlater.1, List.forall_mem_cons.mpr ⟨.inl rfl, hlater.2⟩⟩
    | sentence h =>
      have hfits := (takeAssignment locals first lines).fits
      have hstatement := gathers_takeAssignment locals first lines
      have hlater := gathers_readStatements (takeAssignment locals first lines).rest
      rw [readStatements_statement h]
      exact ⟨List.forall_mem_append.mpr ⟨hstatement.value, hlater.1⟩,
        List.forall_mem_append.mpr ⟨hstatement.problems, hlater.2⟩⟩
termination_by 2 * weight lines + 1
decreasing_by
  all_goals
    simp only [weight_cons] at *
    omega

theorem gathers_takeBody (owner : Nat) (lines : List LogicalLine) :
    (takeBody locals owner lines).Gathers fun statements =>
      ∀ statement ∈ statements, statement.IsRead locals := by
  cases lines with
  | nil => exact .of_parts takeBody_nil (by simp) (isOfText_single rfl)
  | cons first lines =>
    cases lineForm first.text with
    | opening text h =>
      have hfits := weight_takeBlock_lt h lines
      have hinner := gathers_readStatements (takeBlock first.number 0 text first.number lines).inner
      exact .of_parts (takeBody_brace h) hinner.1
        (List.forall_mem_append.mpr ⟨isOfText_takeBlock _ _ _ _ _, hinner.2⟩)
    | closing text h =>
      have hopen (text : Text) : first.text ≠ '{' :: text := by simp [h]
      have hclose : (startsWithBrace first.text || isElse first.text) = true := by
        simp [h, startsWithBrace]
      exact .of_parts (takeBody_missing hopen hclose) (by simp) (isOfText_single rfl)
    | choice hbrace hif helse =>
      have harm := gathers_takeArm first lines
      exact .of_parts (takeBody_if hbrace helse hif)
        (List.forall_mem_singleton.mpr (.choose harm.value)) harm.problems
    | alternative hbrace hif helse =>
      have hopen (text : Text) : first.text ≠ '{' :: text := by
        intro h
        simp [h, startsWithBrace] at hbrace
      exact .of_parts (takeBody_missing hopen (by simp [helse])) (by simp) (isOfText_single rfl)
    | sentence h =>
      have hstatement := gathers_takeAssignment locals first lines
      exact .of_parts (takeBody_statement h) hstatement.value hstatement.problems
termination_by 2 * weight lines + 1
decreasing_by
  all_goals
    simp only [weight_cons] at *
    omega

theorem gathers_takeArm (first : LogicalLine) (lines : List LogicalLine) :
    (takeArm locals first lines).Gathers (Arm.IsRead locals) := by
  have hguardFits := (takeGuard locals first lines).fits
  have hbodyFits := (takeBody locals first.number (takeGuard locals first lines).rest).fits
  -- The three parts of an arm are gathered one behind the other.
  have hguard := gathers_takeGuard locals first lines
  have hbody := gathers_takeBody first.number (takeGuard locals first lines).rest
  have hotherwise := gathers_takeAlternative
    (takeBody locals first.number (takeGuard locals first lines).rest).rest
  exact .of_parts takeArm_parts (.mk hguard.value hbody.value hotherwise.value)
    (List.forall_mem_append.mpr
      ⟨List.forall_mem_append.mpr ⟨hguard.problems, hbody.problems⟩, hotherwise.problems⟩)
termination_by 2 * (first.text.length + 1 + weight lines)
decreasing_by
  all_goals omega

theorem gathers_takeAlternative (lines : List LogicalLine) :
    (takeAlternative locals lines).Gathers (Alternative.IsRead locals) := by
  cases lines with
  | nil => exact .of_parts takeAlternative_nil .done (by simp)
  | cons first lines =>
    cases helse : isElse first.text with
    | false => exact .of_parts (takeAlternative_done helse) .done (by simp)
    | true =>
      rcases else_cases helse with h | h | ⟨text, h⟩
      · cases lines with
        | nil =>
          have hbody := gathers_takeBody first.number []
          exact .of_parts (takeAlternative_always_end h) (.always hbody.value) hbody.problems
        | cons next rest =>
          cases hnext : isIf next.text with
          | true =>
            have harm := gathers_takeArm next rest
            exact .of_parts (takeAlternative_stacked h hnext) (.arm harm.value) harm.problems
          | false =>
            have hbody := gathers_takeBody first.number (next :: rest)
            exact .of_parts (takeAlternative_always_next h hnext) (.always hbody.value)
              hbody.problems
      · have harm := gathers_takeArm first lines
        exact .of_parts (takeAlternative_joined h) (.arm harm.value) harm.problems
      · have hbehind := length_of_afterElse? h
        have hweight := weight_pushRest_le text first.number lines
        by_cases hif : isIf text = true
        · have harm := gathers_takeArm ⟨text, first.number⟩ lines
          exact .of_parts ((takeAlternative_after h).trans (if_pos hif)) (.arm harm.value)
            harm.problems
        · have hbody := gathers_takeBody first.number (pushRest text first.number lines)
          exact .of_parts ((takeAlternative_after h).trans (if_neg hif)) (.always hbody.value)
            hbody.problems
termination_by 2 * weight lines + 1
decreasing_by
  all_goals
    simp only [weight_cons] at *
    omega

end

theorem isRead_readStatements (lines : List LogicalLine) :
    ∀ statement ∈ (readStatements locals lines).value, statement.IsRead locals :=
  (gathers_readStatements locals lines).1

theorem isOfText_readStatements (lines : List LogicalLine) :
    ∀ problem ∈ (readStatements locals lines).notes, problem.IsOfText :=
  (gathers_readStatements locals lines).2

end Readers

end SignalScript
