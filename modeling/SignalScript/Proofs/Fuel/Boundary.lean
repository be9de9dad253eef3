import SignalScript.Proofs.Fuel.Procedure
import SignalScript.Proofs.Statement.Steps

/-!
# Boundaries within fuel

Statements, heads and blocks are collected line by line. Every step takes one of the lines in hand,
so fuel for more steps than there are lines is enough.

## Main definitions

* `collecting` — collects lines up to the end of a statement or a head
* `takeStatementWithin`, `takeConditionWithin`, `takeBlockWithin` — the boundaries within some fuel

## Main results

* `takeStatementWithin_eq`, `takeConditionWithin_eq`, `takeBlockWithin_eq` — fuel above the number
  of lines is enough
* `length_takeStatement_le`, `length_takeCondition_le` — the texts are no longer than their lines
-/

namespace SignalScript

/-- What was taken and the lines behind it, with the problems met on the way. -/
def Taken.reported {α : Type} {room : Nat} (taken : Taken α room) :
    Reported (α × List LogicalLine) :=
  ⟨(taken.value, taken.rest), taken.problems⟩

theorem Taken.reported_of_parts {α : Type} {room : Nat} {taken : Taken α room} {value : α}
    {problems : List Problem} {rest : List LogicalLine}
    (h : taken.parts = (value, problems, rest)) : taken.reported = ⟨(value, rest), problems⟩ := by
  obtain ⟨rfl, rfl, rfl⟩ : taken.value = value ∧ taken.problems = problems ∧ taken.rest = rest := by
    simpa only [parts, Prod.mk.injEq] using h
  rfl

theorem Taken.reported_eq_of_parts_eq {α : Type} {room room' : Nat} {taken : Taken α room}
    {other : Taken α room'} (h : taken.parts = other.parts) : taken.reported = other.reported :=
  Taken.reported_of_parts h

/-- The lines of a block and those behind it, with the problems met on the way. -/
def Block.reported {room : Nat} (block : Block room) :
    Reported (List LogicalLine × List LogicalLine) :=
  ⟨(block.inner, block.rest), block.problems⟩

theorem Block.reported_of_parts {room : Nat} {block : Block room}
    {inner rest : List LogicalLine} {problems : List Problem}
    (h : block.parts = (inner, problems, rest)) : block.reported = ⟨(inner, rest), problems⟩ := by
  obtain ⟨rfl, rfl, rfl⟩ : block.inner = inner ∧ block.problems = problems ∧ block.rest = rest := by
    simpa only [parts, Prod.mk.injEq] using h
  rfl

/-- No line is without weight. -/
theorem length_le_weight (lines : List LogicalLine) : lines.length ≤ weight lines := by
  induction lines with
  | nil => exact Nat.le_refl 0
  | cons line rest ih =>
    rw [List.length_cons, weight_cons]
    omega

section Collecting

variable (cut? : Text → Option (Text × Text)) (ends : Text → Bool) (cause : Text → Cause)
  (number : Nat)

/-- Joins lines to a text until `cut?` cuts it. At the last line, and in front of a line that ends
what is open, the text is taken as it is. -/
def collecting : Procedure Problem (Text × List LogicalLine) fun _ => Text × List LogicalLine :=
  fun self (text, lines) =>
    match cut? text with
    | some (taken, behind) => pure (taken, pushRest behind number lines)
    | none =>
      match lines with
      | next :: rest =>
        if ends next.text then .done ⟨(text, next :: rest), [⟨number, cause text⟩]⟩
        else self (text ++ ' ' :: next.text, rest)
      | [] => .done ⟨(text, []), [⟨number, cause text⟩]⟩

/-- Each step of collecting takes a line. -/
theorem collecting_within (answer : Text × List LogicalLine → Reported (Text × List LogicalLine))
    (hcut : ∀ {text taken behind lines}, cut? text = some (taken, behind) →
      answer (text, lines) = pure (taken, pushRest behind number lines))
    (hends : ∀ {text next rest}, cut? text = none → ends next.text = true →
      answer (text, next :: rest) = ⟨(text, next :: rest), [⟨number, cause text⟩]⟩)
    (hnext : ∀ {text next rest}, cut? text = none → ends next.text = false →
      answer (text, next :: rest) = answer (text ++ ' ' :: next.text, rest))
    (hend : ∀ {text}, cut? text = none →
      answer (text, []) = ⟨(text, []), [⟨number, cause text⟩]⟩)
    {fuel : Nat} {text : Text} {lines : List LogicalLine} (h : lines.length < fuel) :
    (collecting cut? ends cause number).within fuel (text, lines) =
      .done (answer (text, lines)) := by
  refine Procedure.within_eq answer (fun call => call.2.length) ?_ (text, lines) h h
  rintro ⟨text, lines⟩ self - hself
  simp only [collecting]
  cases hfound : cut? text with
  | some pair => exact congrArg Limited.done (hcut hfound).symm
  | none =>
    cases lines with
    | nil => exact congrArg Limited.done (hend hfound).symm
    | cons next rest =>
      cases hstop : ends next.text with
      | true =>
        simp only [hstop, if_true]
        exact congrArg Limited.done (hends hfound hstop).symm
      | false =>
        simp only [hstop, Bool.false_eq_true, if_false]
        rw [hself (text ++ ' ' :: next.text, rest) (Nat.lt_succ_self _), hnext hfound hstop]

end Collecting

section Boundaries

variable (fuel : Nat) (text : Text) (number : Nat) (lines : List LogicalLine)

/-- The text up to the first semicolon, with it, and the text behind. -/
def cutStatement? (text : Text) : Option (Text × Text) :=
  (Text.cut? ';' text).map fun (before, behind) => (before ++ [';'], behind)

/-- The text of a statement and the lines behind it, within some fuel. -/
def takeStatementWithin : Limited Problem (Text × List LogicalLine) :=
  (collecting cutStatement? isStructural .missingSemicolon number).within fuel (text, lines)

/-- The head of an arm and the lines behind it, within some fuel. -/
def takeConditionWithin : Limited Problem (Text × List LogicalLine) :=
  (collecting cutCondition? startsWithBrace .openCondition number).within fuel (text, lines)

/-- Keeps the lines of a block up to the brace that closes it. -/
def bracing (start : Nat) : Procedure Problem (Nat × Text × Nat × List LogicalLine)
    fun _ => List LogicalLine × List LogicalLine :=
  fun self (depth, text, number, lines) =>
    match scanBraces depth text with
    | .closed kept after => pure (pushRest kept number [], pushRest after number lines)
    | .inside kept depth =>
      match lines with
      | [] => .done ⟨(pushRest kept number [], []), [⟨start, .openBlock⟩]⟩
      | next :: rest => do
        let (inner, behind) ← self (depth, next.text, next.number, rest)
        pure (pushRest kept number inner, behind)

/-- The lines of a block that begins on line `start` and the lines behind it, within some fuel. -/
def takeBlockWithin (start depth : Nat) : Limited Problem (List LogicalLine × List LogicalLine) :=
  (bracing start).within fuel (depth, text, number, lines)

variable {fuel text number lines}

/-- Every step takes a line, so fuel above the number of lines is enough for a statement. -/
theorem takeStatementWithin_eq (h : lines.length < fuel) :
    takeStatementWithin fuel text number lines =
      .done (takeStatement text number lines).reported := by
  have hnone {text : Text} (hcut : cutStatement? text = none) : Text.cut? ';' text = none :=
    Option.map_eq_none_iff.mp hcut
  refine collecting_within _ _ _ _ (fun call => (takeStatement call.1 number call.2).reported)
    (fun hcut => ?_) (fun hcut hnext => ?_) (fun hcut hnext => ?_) (fun hcut => ?_) h
  · obtain ⟨⟨before, behind⟩, hfound, hpair⟩ := Option.map_eq_some_iff.mp hcut
    obtain ⟨rfl, rfl⟩ := Prod.mk.inj hpair
    exact Taken.reported_of_parts (takeStatement_cut hfound)
  · exact Taken.reported_of_parts (takeStatement_structural (hnone hcut) hnext)
  · exact Taken.reported_eq_of_parts_eq (takeStatement_next (hnone hcut) hnext)
  · exact Taken.reported_of_parts (takeStatement_end (hnone hcut))

/-- It is enough for the head of an arm. -/
theorem takeConditionWithin_eq (h : lines.length < fuel) :
    takeConditionWithin fuel text number lines =
      .done (takeCondition text number lines).reported :=
  collecting_within _ _ _ _ (fun call => (takeCondition call.1 number call.2).reported)
    (fun hcut => Taken.reported_of_parts (takeCondition_cut hcut))
    (fun hcut hnext => Taken.reported_of_parts (takeCondition_brace hcut hnext))
    (fun hcut hnext => Taken.reported_eq_of_parts_eq (takeCondition_next hcut hnext))
    (fun hcut => Taken.reported_of_parts (takeCondition_end hcut)) h

/-- It is enough for a block. -/
theorem takeBlockWithin_eq {start depth : Nat} (h : lines.length < fuel) :
    takeBlockWithin fuel text number lines start depth =
      .done (takeBlock start depth text number lines).reported := by
  refine Procedure.within_eq
    (fun call => (takeBlock start call.1 call.2.1 call.2.2.1 call.2.2.2).reported)
    (fun call => call.2.2.2.length) ?_ (depth, text, number, lines) h h
  rintro ⟨depth, text, number, lines⟩ self - hself
  simp only [bracing]
  cases hscan : scanBraces depth text with
  | closed kept after =>
    exact congrArg Limited.done (Block.reported_of_parts (takeBlock_closed hscan)).symm
  | inside kept depth' =>
    cases lines with
    | nil => exact congrArg Limited.done (Block.reported_of_parts (takeBlock_end hscan)).symm
    | cons next rest =>
      have hblock : (takeBlock start depth text number (next :: rest)).reported =
          ((takeBlock start depth' next.text next.number rest).reported >>= fun (inner, behind) =>
            pure (pushRest kept number inner, behind)) :=
        (Block.reported_of_parts (takeBlock_next hscan)).trans
          (congrArg (Noted.mk _) (List.append_nil _).symm)
      simp only
      rw [hself (depth', next.text, next.number, rest) (Nat.lt_succ_self _), hblock]
      exact Limited.done_bind rfl

/-- A statement is no longer than the lines that it is read from. -/
theorem length_takeStatement_le :
    (takeStatement text number lines).value.length ≤ text.length + weight lines := by
  fun_induction takeStatement text number lines with
  | case1 text lines statement behind hcut =>
    have := Text.cut?_length hcut
    rw [List.length_append, List.length_singleton]
    omega
  | case2 => exact Nat.le_add_right _ _
  | case3 text hcut next rest hnext taken ih =>
    exact Nat.le_trans ih (Nat.le_of_eq (weight_joined ..))
  | case4 => exact Nat.le_refl _

theorem length_cutCondition?_le {head after : Text} (h : cutCondition? text = some (head, after)) :
    head.length ≤ text.length := by
  rw [cutCondition?] at h
  split at h
  · cases h
  · rename_i before behind hcut
    obtain ⟨⟨inner, after⟩, hclose, hpair⟩ := Option.map_eq_some_iff.mp h
    obtain ⟨rfl, -⟩ := Prod.mk.inj hpair
    have := Text.cut?_length hcut
    have := Text.closing?_length hclose
    simp only [List.length_append, List.length_cons, List.length_nil]
    omega

/-- A head is no longer than the lines that it is read from. -/
theorem length_takeCondition_le :
    (takeCondition text number lines).value.length ≤ text.length + weight lines := by
  fun_induction takeCondition text number lines with
  | case1 text lines head behind hcut =>
    exact Nat.le_trans (length_cutCondition?_le hcut) (Nat.le_add_right _ _)
  | case2 => exact Nat.le_add_right _ _
  | case3 text hcut next rest hnext taken ih =>
    exact Nat.le_trans ih (Nat.le_of_eq (weight_joined ..))
  | case4 => exact Nat.le_refl _

end Boundaries

end SignalScript
