import SignalScript.Proofs.Condition.Bracket
import SignalScript.Proofs.Fuel.Structure

/-!
# What stands in front of a condition

The head of an arm reaches from its keyword to the bracket that closes its condition, over as many
lines as that takes. The condition is what the brackets enclose. Nobody looks at the text between
the keyword and the first bracket: a negation, a comparison or a whole statement there is lost
without a note.

## Main results

* `takeGuard_eq_enclosed` — the condition of a head is what its brackets enclose
* `takeArm_eq_of_enclosed` — heads that enclose the same make the same arm, with the same notes
* `exists_front_unnoted` — a negation in front of a condition is lost
-/

namespace SignalScript

open Text

section Heads

variable {front front' inner : Text} {first other : LogicalLine}
  {lines lines' rest : List LogicalLine}

/-- The condition of a head that is closed is what its brackets enclose, and so are its causes. -/
theorem takeGuard_eq_enclosed (locals : List Text) (hfront : '(' ∉ front)
    (hhead : (takeCondition first.text first.number lines).parts =
      (front ++ '(' :: (inner ++ [')']), [], rest)) :
    (takeGuard locals first lines).parts =
      ((Condition.readList locals (trim inner)).value,
        (Condition.readList locals (trim inner)).notes.map (⟨first.number, ·⟩), rest) := by
  obtain ⟨hvalue, hproblems, hrest⟩ : _ ∧ _ ∧ _ := by
    simpa only [Taken.parts, Prod.mk.injEq] using hhead
  rw [takeGuard_parts]
  simp only
  rw [hvalue, hproblems, hrest, Condition.read_brackets hfront]
  rfl

/-- Heads on one line number that enclose the same, with the same lines behind them, make the same
arm with the same problems, whatever stands in front of their brackets. -/
theorem takeArm_eq_of_enclosed (locals : List Text) (front front' inner : Text)
    (hnumber : first.number = other.number) (hfront : '(' ∉ front) (hfront' : '(' ∉ front')
    (hhead : (takeCondition first.text first.number lines).parts =
      (front ++ '(' :: (inner ++ [')']), [], rest))
    (hother : (takeCondition other.text other.number lines').parts =
      (front' ++ '(' :: (inner ++ [')']), [], rest)) :
    (takeArm locals first lines).parts = (takeArm locals other lines').parts := by
  have hguard := takeGuard_eq_enclosed locals hfront hhead
  have hguard' := takeGuard_eq_enclosed locals hfront' hother
  rw [← hnumber, ← hguard] at hguard'
  obtain ⟨hvalue, hproblems, hrest⟩ : _ ∧ _ ∧ _ := by
    simpa only [Taken.parts, Prod.mk.injEq] using hguard'
  -- The body and what follows it are read from the lines behind the head.
  rw [takeArm_parts, takeArm_parts]
  simp only
  rw [hvalue, hproblems, hrest, hnumber]

end Heads

theorem takeArm_eq_of_enclosed_negated :
    (takeArm ["A".toList] ⟨"IF NOT (A) STATE = 1;".toList, 1⟩ []).parts =
      (takeArm ["A".toList] ⟨"IF (A) STATE = 1;".toList, 1⟩ []).parts := by
  have hnegated : cutCondition? "IF NOT (A) STATE = 1;".toList =
      some ("IF NOT (A)".toList, " STATE = 1;".toList) := by decide
  have hplain : cutCondition? "IF (A) STATE = 1;".toList =
      some ("IF (A)".toList, " STATE = 1;".toList) := by decide
  exact takeArm_eq_of_enclosed _ "IF NOT ".toList "IF ".toList "A".toList rfl (by decide)
    (by decide) (takeCondition_cut hnegated) (takeCondition_cut hplain)

/-- A negation in front of a condition is lost without a note. -/
theorem exists_front_unnoted : ¬ ∀ (locals : List Text) (front condition behind : Text)
    (number : Nat) (lines : List LogicalLine), (∃ c ∈ front, isBlank c = false) →
    (∀ c ∈ front, c ∉ ['(', ')', '{', '}']) → IsBalanced condition →
    (readStatements locals (⟨"IF ".toList ++ (front ++ '(' :: (condition ++ ')' :: behind)),
      number⟩ :: lines)).notes ≠ [] := by
  intro h
  have hread : readStatementsWithin 100 ["A".toList] [⟨"IF NOT (A) STATE = 1;".toList, 1⟩] =
      .done ⟨[.choose (.mk [.test (.single ⟨false, .operand (.slot 0)⟩)]
        [.assign ⟨.external .state, [⟨false, none, 0, .atom (.operand (.constant 1))⟩], 1⟩]
        .done)], []⟩ := rfl
  have hsame := (readStatementsWithin_eq (by decide)).symm.trans hread
  have hplain : ∀ c ∈ "NOT ".toList, c ∉ ['(', ')', '{', '}'] := by simp
  exact h ["A".toList] "NOT ".toList "A".toList " STATE = 1;".toList 1 [] ⟨'N', by decide, rfl⟩
    hplain (.of_not_mem (by decide) (by decide)) (congrArg Noted.notes (Option.some.inj hsame))

end SignalScript
