import SignalScript.Proofs.Source.Appending
import SignalScript.Proofs.Statement.StatementForm
import SignalScript.Proofs.Statement.Structuring
import SignalScript.Script.Declaration

/-!
# Line numbers play no part

The readers of a body copy line numbers and never look at them. On lines with other numbers they
take the same texts, read the same statements and meet the same problems, with the numbers that the
lines have now.

## Main definitions

* `Statement.renumbered`, `Problem.renumbered` — the same with other line numbers
* `Taken.Renumbers` — what was taken from lines with other numbers

## Main results

* `readStatements_renumbered` — the statements of lines with other numbers
* `declarations_renumbered` — the declarations among them
-/

namespace SignalScript

/-- The problem on another line. -/
def Problem.renumbered (f : Nat → Nat) (problem : Problem) : Problem :=
  { problem with line := f problem.line }

/-- The assignment on another line. -/
def Assignment.renumbered (f : Nat → Nat) (assignment : Assignment) : Assignment :=
  { assignment with line := f assignment.line }

mutual

/-- The statement with other line numbers. -/
def Statement.renumbered (f : Nat → Nat) : Statement → Statement
  | .assign assignment => .assign (assignment.renumbered f)
  | .choose first => .choose (first.renumbered f)

/-- The arm with other line numbers. -/
def Arm.renumbered (f : Nat → Nat) : Arm → Arm
  | .mk condition body otherwise =>
    .mk condition (Statement.allRenumbered f body) (otherwise.renumbered f)

/-- What follows an arm, with other line numbers. -/
def Alternative.renumbered (f : Nat → Nat) : Alternative → Alternative
  | .done => .done
  | .always body => .always (Statement.allRenumbered f body)
  | .arm next => .arm (next.renumbered f)

/-- The statements with other line numbers. -/
def Statement.allRenumbered (f : Nat → Nat) : List Statement → List Statement
  | [] => []
  | first :: later => first.renumbered f :: Statement.allRenumbered f later

end

/-- What was read, with other line numbers. -/
def Noted.renumbered (f : Nat → Nat) (reported : Reported (List Statement)) :
    Reported (List Statement) :=
  ⟨Statement.allRenumbered f reported.value, reported.notes.map (Problem.renumbered f)⟩

variable {f : Nat → Nat}

section Zero

mutual

theorem Statement.renumbered_zero (statement : Statement) :
    statement.renumbered (fun _ => 0) = statement.unnumbered := by
  match statement with
  | .assign assignment => rfl
  | .choose first => exact congrArg Statement.choose (Arm.renumbered_zero first)
termination_by structural statement

theorem Arm.renumbered_zero (arm : Arm) : arm.renumbered (fun _ => 0) = arm.unnumbered := by
  match arm with
  | .mk condition body otherwise =>
    rw [Arm.renumbered, Arm.unnumbered, allRenumbered_zero, Alternative.renumbered_zero]
termination_by structural arm

theorem Alternative.renumbered_zero (otherwise : Alternative) :
    otherwise.renumbered (fun _ => 0) = otherwise.unnumbered := by
  match otherwise with
  | .done => rfl
  | .always body => exact congrArg Alternative.always (allRenumbered_zero body)
  | .arm next => exact congrArg Alternative.arm (Arm.renumbered_zero next)
termination_by structural otherwise

/-- With zero for every number, the statements have none. -/
theorem allRenumbered_zero (body : List Statement) :
    Statement.allRenumbered (fun _ => 0) body = Statement.allUnnumbered body := by
  match body with
  | [] => rfl
  | first :: later =>
    exact congrArg₂ List.cons (Statement.renumbered_zero first) (allRenumbered_zero later)
termination_by structural body

end

end Zero

theorem allRenumbered_append (first later : List Statement) :
    Statement.allRenumbered f (first ++ later) =
      Statement.allRenumbered f first ++ Statement.allRenumbered f later := by
  induction first with
  | nil => rfl
  | cons statement rest ih =>
    rw [List.cons_append, Statement.allRenumbered, Statement.allRenumbered, ih, List.cons_append]

theorem map_renumbered_atLine (number : Nat) (causes : List Cause) :
    (causes.map (Problem.mk number)).map (Problem.renumbered f) =
      causes.map (Problem.mk (f number)) := by
  rw [List.map_map]
  rfl

theorem map_pushRest (text : Text) (number : Nat) (lines : List LogicalLine) :
    (pushRest text number lines).map (LogicalLine.renumbered f) =
      pushRest text (f number) (lines.map (LogicalLine.renumbered f)) := by
  simp only [pushRest]
  split <;> rfl

/-- The second was taken from the lines of the first with other numbers, and is the same but for
these. -/
structure Taken.Renumbers {α : Type} {room room' : Nat} (f : Nat → Nat) (renumbered : α → α)
    (taken : Taken α room) (again : Taken α room') : Prop where
  value_eq : again.value = renumbered taken.value
  problems_eq : again.problems = taken.problems.map (Problem.renumbered f)
  rest_eq : again.rest = taken.rest.map (LogicalLine.renumbered f)

theorem Taken.Renumbers.of_parts {α : Type} {room room' : Nat} {renumbered : α → α}
    {taken : Taken α room} {again : Taken α room'} {value : α} {problems : List Problem}
    {rest : List LogicalLine} (h : taken.parts = (value, problems, rest))
    (hagain : again.parts = (renumbered value, problems.map (Problem.renumbered f),
      rest.map (LogicalLine.renumbered f))) : taken.Renumbers f renumbered again where
  value_eq := by
    rw [show taken.value = value from congrArg Prod.fst h]
    exact congrArg Prod.fst hagain
  problems_eq := by
    rw [show taken.problems = problems from congrArg (fun parts => parts.2.1) h]
    exact congrArg (fun parts => parts.2.1) hagain
  rest_eq := by
    rw [show taken.rest = rest from congrArg (fun parts => parts.2.2) h]
    exact congrArg (fun parts => parts.2.2) hagain

/-! ### Boundaries -/

section Boundaries

variable (f : Nat → Nat) (text : Text) (number : Nat) (lines : List LogicalLine)

theorem takeStatement_renumbered :
    (takeStatement text number lines).Renumbers f id
      (takeStatement text (f number) (lines.map (LogicalLine.renumbered f))) := by
  fun_induction takeStatement text number lines with
  | case1 text lines statement behind hcut =>
    exact .of_parts rfl ((takeStatement_cut hcut).trans (by rw [map_pushRest]; rfl))
  | case2 text hcut next rest hnext =>
    have hagain : isStructural (next.renumbered f).text = true := hnext
    exact .of_parts rfl (takeStatement_structural hcut hagain)
  | case3 text hcut next rest hnext taken ih =>
    have hagain : isStructural (next.renumbered f).text = false := Bool.eq_false_iff.mpr hnext
    refine .of_parts rfl ((takeStatement_next hcut hagain).trans ?_)
    exact Prod.ext ih.value_eq (Prod.ext ih.problems_eq ih.rest_eq)
  | case4 text hcut => exact .of_parts rfl (takeStatement_end hcut)

theorem takeCondition_renumbered :
    (takeCondition text number lines).Renumbers f id
      (takeCondition text (f number) (lines.map (LogicalLine.renumbered f))) := by
  fun_induction takeCondition text number lines with
  | case1 text lines head behind hcut =>
    exact .of_parts rfl ((takeCondition_cut hcut).trans (by rw [map_pushRest]; rfl))
  | case2 text hcut next rest hnext =>
    have hagain : startsWithBrace (next.renumbered f).text = true := hnext
    exact .of_parts rfl (takeCondition_brace hcut hagain)
  | case3 text hcut next rest hnext taken ih =>
    have hagain : startsWithBrace (next.renumbered f).text = false := Bool.eq_false_iff.mpr hnext
    refine .of_parts rfl ((takeCondition_next hcut hagain).trans ?_)
    exact Prod.ext ih.value_eq (Prod.ext ih.problems_eq ih.rest_eq)
  | case4 text hcut => exact .of_parts rfl (takeCondition_end hcut)

theorem takeBlock_renumbered (start depth : Nat) :
    (takeBlock (f start) depth text (f number) (lines.map (LogicalLine.renumbered f))).parts =
      let block := takeBlock start depth text number lines
      (block.inner.map (LogicalLine.renumbered f), block.problems.map (Problem.renumbered f),
        block.rest.map (LogicalLine.renumbered f)) := by
  fun_induction takeBlock start depth text number lines with
  | case1 depth text number lines kept after hscan =>
    exact (takeBlock_closed hscan).trans (by simp only [map_pushRest, List.map_nil])
  | case2 depth text number kept depth' hscan =>
    exact (takeBlock_end hscan).trans (by simp only [map_pushRest]; rfl)
  | case3 depth text number kept depth' hscan next rest block ih =>
    have hagain : (takeBlock (f start) depth text (f number)
        (next.renumbered f :: rest.map (LogicalLine.renumbered f))).parts = _ :=
      takeBlock_next hscan
    refine hagain.trans ?_
    simp only [LogicalLine.renumbered, map_pushRest] at ih ⊢
    rw [ih]

theorem block_parts {room : Nat} {block : Block room} {inner rest : List LogicalLine}
    {problems : List Problem} (h : block.parts = (inner, problems, rest)) :
    block.inner = inner ∧ block.problems = problems ∧ block.rest = rest := by
  simpa only [Block.parts, Prod.mk.injEq] using h

end Boundaries

/-! ### Statements and guards -/

section Readers

variable (f : Nat → Nat) (locals : List Text)

/-- The number of its line is all that an assignment has from its place. -/
theorem allRenumbered_read (number : Nat) (text : Text) :
    Statement.allRenumbered f
        ((Assignment.read locals number text).value.toList.map .assign) =
      (Assignment.read locals (f number) text).value.toList.map .assign := by
  rw [read_line number text, read_line (f number) text, Noted.value_map, Noted.value_map]
  cases (Assignment.read locals 0 text).value <;> rfl

theorem takeAssignment_renumbered (first : LogicalLine) (lines : List LogicalLine) :
    (takeAssignment locals first lines).Renumbers f (Statement.allRenumbered f)
      (takeAssignment locals (first.renumbered f) (lines.map (LogicalLine.renumbered f))) := by
  have hstatement := takeStatement_renumbered f first.text first.number lines
  refine .of_parts takeAssignment_parts (takeAssignment_parts.trans ?_)
  simp only [LogicalLine.renumbered, hstatement.value_eq, hstatement.problems_eq,
    hstatement.rest_eq, List.map_append, map_renumbered_atLine, notes_read, id_eq,
    allRenumbered_read]

theorem takeGuard_renumbered (first : LogicalLine) (lines : List LogicalLine) :
    (takeGuard locals first lines).Renumbers f id
      (takeGuard locals (first.renumbered f) (lines.map (LogicalLine.renumbered f))) := by
  have hhead := takeCondition_renumbered f first.text first.number lines
  refine .of_parts takeGuard_parts (takeGuard_parts.trans ?_)
  simp only [LogicalLine.renumbered, hhead.value_eq, hhead.problems_eq, hhead.rest_eq,
    List.map_append, map_renumbered_atLine]
  rfl

/-! ### Bodies -/

mutual

/-- Lines with other numbers hold the same statements, with the same problems in them. -/
theorem readStatements_renumbered (lines : List LogicalLine) :
    readStatements locals (lines.map (LogicalLine.renumbered f)) =
      (readStatements locals lines).renumbered f := by
  cases lines with
  | nil => simp [Noted.renumbered, Statement.allRenumbered]
  | cons first lines =>
    rw [List.map_cons]
    cases lineForm first.text with
    | opening text h =>
      -- A block moves as a whole: what is in it and what is behind it.
      have hfits := weight_takeBlock_lt h lines
      obtain ⟨hinside, hproblems, hbehind⟩ :=
        block_parts (takeBlock_renumbered f text first.number lines first.number 0)
      have hinner := readStatements_renumbered
        (takeBlock first.number 0 text first.number lines).inner
      have hlater := readStatements_renumbered
        (takeBlock first.number 0 text first.number lines).rest
      have hagain : (first.renumbered f).text = '{' :: text := h
      rw [readStatements_brace h, readStatements_brace hagain]
      simp only [LogicalLine.renumbered, hinside, hproblems, hbehind] at hinner hlater ⊢
      simp only [hinner, hlater, Noted.renumbered, allRenumbered_append, List.map_append]
    | closing text h =>
      -- What is put back behind a stray brace goes under the moved number.
      have hfits := weight_pushRest_lt h lines
      have hlater := readStatements_renumbered (pushRest text first.number lines)
      rw [map_pushRest] at hlater
      have hagain : (first.renumbered f).text = '}' :: text := h
      rw [readStatements_stray h, readStatements_stray hagain]
      simp only [LogicalLine.renumbered] at hlater ⊢
      rw [hlater]
      rfl
    | choice hbrace hif _ =>
      have hfits := (takeArm locals first lines).fits
      have harm := takeArm_renumbered first lines
      have hlater := readStatements_renumbered (takeArm locals first lines).rest
      have hagain : startsWithBrace (first.renumbered f).text = false := hbrace
      rw [readStatements_if hbrace hif, readStatements_if hagain hif]
      simp only [harm.value_eq, harm.problems_eq, harm.rest_eq, hlater, Noted.renumbered,
        Statement.allRenumbered, Statement.renumbered, List.map_append]
    | alternative hbrace hif helse =>
      have hlater := readStatements_renumbered lines
      have hagain : startsWithBrace (first.renumbered f).text = false := hbrace
      rw [readStatements_else hbrace hif helse, readStatements_else hagain hif helse, hlater]
      rfl
    | sentence h =>
      have hfits := (takeAssignment locals first lines).fits
      have hstatement := takeAssignment_renumbered f locals first lines
      have hlater := readStatements_renumbered (takeAssignment locals first lines).rest
      have hagain : isStructural (first.renumbered f).text = false := h
      rw [readStatements_statement h, readStatements_statement hagain]
      simp only [hstatement.value_eq, hstatement.problems_eq, hstatement.rest_eq, hlater,
        Noted.renumbered, allRenumbered_append, List.map_append]
termination_by 2 * weight lines + 1
decreasing_by
  all_goals
    simp only [weight_cons] at *
    omega

theorem takeBody_renumbered (owner : Nat) (lines : List LogicalLine) :
    (takeBody locals owner lines).Renumbers f (Statement.allRenumbered f)
      (takeBody locals (f owner) (lines.map (LogicalLine.renumbered f))) := by
  cases lines with
  | nil => exact .of_parts takeBody_nil takeBody_nil
  | cons first lines =>
    rw [List.map_cons]
    cases lineForm first.text with
    | opening text h =>
      have hfits := weight_takeBlock_lt h lines
      obtain ⟨hinside, hproblems, hbehind⟩ :=
        block_parts (takeBlock_renumbered f text first.number lines first.number 0)
      have hinner := readStatements_renumbered
        (takeBlock first.number 0 text first.number lines).inner
      have hagain : (first.renumbered f).text = '{' :: text := h
      refine .of_parts (takeBody_brace h) ((takeBody_brace hagain).trans ?_)
      simp only [LogicalLine.renumbered, hinside, hproblems, hbehind] at hinner ⊢
      simp only [hinner, Noted.renumbered, List.map_append]
    | closing text h =>
      have hopen (rest : Text) : first.text ≠ '{' :: rest := by simp [h]
      have hagain (rest : Text) : (first.renumbered f).text ≠ '{' :: rest := hopen rest
      have hbrace : (startsWithBrace first.text || isElse first.text) = true := by
        simp [h, startsWithBrace]
      exact .of_parts (takeBody_missing hopen hbrace) (takeBody_missing hagain hbrace)
    | choice hbrace hif helse =>
      have harm := takeArm_renumbered first lines
      have hagain : startsWithBrace (first.renumbered f).text = false := hbrace
      refine .of_parts (takeBody_if hbrace helse hif) ((takeBody_if hagain helse hif).trans ?_)
      simp only [harm.value_eq, harm.problems_eq, harm.rest_eq, Statement.allRenumbered,
        Statement.renumbered]
    | alternative hbrace hif helse =>
      have hopen (rest : Text) : first.text ≠ '{' :: rest := by
        intro h
        simp [h, startsWithBrace] at hbrace
      have hagain (rest : Text) : (first.renumbered f).text ≠ '{' :: rest := hopen rest
      have helse : (startsWithBrace first.text || isElse first.text) = true := by simp [helse]
      exact .of_parts (takeBody_missing hopen helse) (takeBody_missing hagain helse)
    | sentence h =>
      have hstatement := takeAssignment_renumbered f locals first lines
      have hagain : isStructural (first.renumbered f).text = false := h
      refine .of_parts (takeBody_statement h) ((takeBody_statement hagain).trans ?_)
      exact Prod.ext hstatement.value_eq (Prod.ext hstatement.problems_eq hstatement.rest_eq)
termination_by 2 * weight lines + 1
decreasing_by
  all_goals
    simp only [weight_cons] at *
    omega

theorem takeArm_renumbered (first : LogicalLine) (lines : List LogicalLine) :
    (takeArm locals first lines).Renumbers f (Arm.renumbered f)
      (takeArm locals (first.renumbered f) (lines.map (LogicalLine.renumbered f))) := by
  have hguard := takeGuard_renumbered f locals first lines
  have hguardFits := (takeGuard locals first lines).fits
  have hbody := takeBody_renumbered first.number (takeGuard locals first lines).rest
  have hbodyFits := (takeBody locals first.number (takeGuard locals first lines).rest).fits
  have hotherwise := takeAlternative_renumbered
    (takeBody locals first.number (takeGuard locals first lines).rest).rest
  refine .of_parts takeArm_parts (takeArm_parts.trans ?_)
  -- Each part begins where the moved part before it ends.
  rw [← hguard.rest_eq] at hbody
  rw [← hbody.rest_eq] at hotherwise
  simp only [LogicalLine.renumbered] at hguard hbody hotherwise ⊢
  simp only [hguard.value_eq, hguard.problems_eq, hbody.value_eq, hbody.problems_eq,
    hotherwise.value_eq, hotherwise.problems_eq, hotherwise.rest_eq, Arm.renumbered,
    List.map_append, id_eq]
termination_by 2 * (first.text.length + 1 + weight lines)
decreasing_by
  all_goals omega

theorem takeAlternative_renumbered (lines : List LogicalLine) :
    (takeAlternative locals lines).Renumbers f (Alternative.renumbered f)
      (takeAlternative locals (lines.map (LogicalLine.renumbered f))) := by
  cases lines with
  | nil => exact .of_parts takeAlternative_nil takeAlternative_nil
  | cons first lines =>
    rw [List.map_cons]
    cases helse : isElse first.text with
    | false =>
      have hagain : isElse (first.renumbered f).text = false := helse
      exact .of_parts (takeAlternative_done helse) (takeAlternative_done hagain)
    | true =>
      rcases else_cases helse with h | h | ⟨text, h⟩
      · -- The three forms of an `ELSE` are told apart by texts, which do not move.
        have hagain : (first.renumbered f).text = "ELSE".toList := h
        cases lines with
        | nil =>
          have hbody := takeBody_renumbered first.number []
          refine .of_parts (takeAlternative_always_end h)
            ((takeAlternative_always_end hagain).trans ?_)
          exact Prod.ext (congrArg Alternative.always hbody.value_eq)
            (Prod.ext hbody.problems_eq hbody.rest_eq)
        | cons next rest =>
          cases hnext : isIf next.text with
          | true =>
            have harm := takeArm_renumbered next rest
            have hnextAgain : isIf (next.renumbered f).text = true := hnext
            refine .of_parts (takeAlternative_stacked h hnext)
              ((takeAlternative_stacked hagain hnextAgain).trans ?_)
            exact Prod.ext (congrArg Alternative.arm harm.value_eq)
              (Prod.ext harm.problems_eq harm.rest_eq)
          | false =>
            have hbody := takeBody_renumbered first.number (next :: rest)
            have hnextAgain : isIf (next.renumbered f).text = false := hnext
            refine .of_parts (takeAlternative_always_next h hnext)
              ((takeAlternative_always_next hagain hnextAgain).trans ?_)
            exact Prod.ext (congrArg Alternative.always hbody.value_eq)
              (Prod.ext hbody.problems_eq hbody.rest_eq)
      · have harm := takeArm_renumbered first lines
        have hagain : "ELSEIF".toList.isPrefixOf (first.renumbered f).text = true := h
        refine .of_parts (takeAlternative_joined h) ((takeAlternative_joined hagain).trans ?_)
        exact Prod.ext (congrArg Alternative.arm harm.value_eq)
          (Prod.ext harm.problems_eq harm.rest_eq)
      · have hbehind := length_of_afterElse? h
        have hweight := weight_pushRest_le text first.number lines
        have hagain : afterElse? (first.renumbered f).text = some text := h
        cases hif : isIf text with
        | true =>
          have harm := takeArm_renumbered ⟨text, first.number⟩ lines
          refine .of_parts ((takeAlternative_after h).trans (if_pos hif))
            ((takeAlternative_after hagain).trans ((if_pos hif).trans ?_))
          exact Prod.ext (congrArg Alternative.arm harm.value_eq)
            (Prod.ext harm.problems_eq harm.rest_eq)
        | false =>
          have hbody := takeBody_renumbered first.number (pushRest text first.number lines)
          rw [map_pushRest] at hbody
          have hsentence : ¬isIf text = true := Bool.eq_false_iff.mp hif
          refine .of_parts ((takeAlternative_after h).trans (if_neg hsentence))
            ((takeAlternative_after hagain).trans ((if_neg hsentence).trans ?_))
          exact Prod.ext (congrArg Alternative.always hbody.value_eq)
            (Prod.ext hbody.problems_eq hbody.rest_eq)
termination_by 2 * weight lines + 1
decreasing_by
  all_goals
    simp only [weight_cons] at *
    omega

end

end Readers

/-! ### Declarations -/

theorem localDeclarations_renumbered (f : Nat → Nat) (locals : List Text)
    (lines : List LogicalLine) :
    localDeclarations locals (lines.map (LogicalLine.renumbered f)) =
      ⟨(localDeclarations locals lines).locals,
        (localDeclarations locals lines).body.map (LogicalLine.renumbered f)⟩ := by
  fun_induction localDeclarations locals lines with
  | case1 locals => rfl
  | case2 locals line rest name hdeclared ih =>
    rw [List.map_cons, localDeclarations]
    simp only [LogicalLine.renumbered, hdeclared] at ih ⊢
    exact ih
  | case3 locals line rest hother =>
    rw [List.map_cons, localDeclarations]
    simp only [LogicalLine.renumbered, hother]

/-- The declarations of lines with other numbers. -/
theorem declarations_renumbered (f : Nat → Nat) (lines : List LogicalLine) :
    declarations (lines.map (LogicalLine.renumbered f)) =
      ⟨(declarations lines).locals, (declarations lines).body.map (LogicalLine.renumbered f)⟩ := by
  rw [declarations, List.dropWhile_map]
  exact localDeclarations_renumbered f [] _

end SignalScript
