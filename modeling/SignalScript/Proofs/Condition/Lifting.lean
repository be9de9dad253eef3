import SignalScript.Proofs.Text.Bracket
import SignalScript.Proofs.Text.Cutting
import SignalScript.Proofs.Text.Decimal
import SignalScript.Condition.Lifting

/-!
# Lifting compounds, part by part

What is lifted out of a text is what is lifted out of its parts, where the compounds of a later part
are numbered behind those of the earlier ones.

## Main definitions

* `Lifts` — what a part of a text becomes, whatever follows it

## Main results

* `Lifts.append` — parts side by side
* `Lifts.pair`, `Lifts.compound` — brackets that stay, and brackets that are lifted
* `compoundNumber?_compoundMark` — the number of a compound is read back from its mark
-/

namespace SignalScript

open Text

/-- From number `number` on, the text becomes `lifted` and leaves `compounds`, whatever follows. -/
def Lifts (number : Nat) (text lifted : Text) (compounds : List Text) : Prop :=
  ∀ back, liftCompoundsFrom number (text ++ back) =
    let later := liftCompoundsFrom (number + compounds.length) back
    ⟨lifted ++ later.text, compounds ++ later.compounds⟩

section Lifting

variable {number : Nat} {text before behind inner after : Text}

theorem liftCompoundsFrom_of_not_mem (h : '(' ∉ text) :
    liftCompoundsFrom number text = ⟨text, []⟩ := by
  rw [liftCompoundsFrom.eq_def]
  split
  · rfl
  · rename_i hcut
    cases (cut?_eq_none_iff.mpr h).symm.trans hcut

/-- The first bracket is not closed. -/
theorem liftCompoundsFrom_open (hbefore : '(' ∉ before) (hclose : closing? 1 behind = none) :
    liftCompoundsFrom number (before ++ '(' :: behind) = ⟨before ++ '(' :: behind, []⟩ := by
  have hfirst := cut?_append_cons hbefore behind
  rw [liftCompoundsFrom.eq_def]
  split
  · rfl
  · rename_i hcut
    cases hfirst.symm.trans hcut
    split
    · rfl
    · rename_i hsome
      cases hclose.symm.trans hsome

/-- The first pair of brackets is lifted if it holds a separator. -/
theorem liftCompoundsFrom_closed (hbefore : '(' ∉ before)
    (hclose : closing? 1 behind = some (inner, after)) :
    liftCompoundsFrom number (before ++ '(' :: behind) =
      if hasSeparator ('(' :: (inner ++ [')'])) then
        let later := liftCompoundsFrom (number + 1) after
        ⟨before ++ compoundMark number ++ later.text, trim inner :: later.compounds⟩
      else
        let later := liftCompoundsFrom number after
        ⟨before ++ ('(' :: (inner ++ [')'])) ++ later.text, later.compounds⟩ := by
  have hfirst := cut?_append_cons hbefore behind
  rw [liftCompoundsFrom.eq_def]
  split
  · rename_i hcut
    cases hfirst.symm.trans hcut
  · rename_i hcut
    cases hfirst.symm.trans hcut
    split
    · rename_i hnone
      cases hclose.symm.trans hnone
    · rename_i hsome
      cases hclose.symm.trans hsome
      rfl

end Lifting

namespace Lifts

variable {number : Nat} {front text lifted lifted' inner : Text} {compounds compounds' : List Text}

/-- What is lifted from two texts side by side is lifted from each; the numbers run on. -/
theorem append (hfront : Lifts number front lifted compounds)
    (htext : Lifts (number + compounds.length) text lifted' compounds') :
    Lifts number (front ++ text) (lifted ++ lifted') (compounds ++ compounds') := by
  intro back
  rw [List.append_assoc, hfront, htext]
  simp only [List.append_assoc, List.length_append, Nat.add_assoc]

/-- Text without brackets stays as it is. -/
theorem plain (h : '(' ∉ text) : Lifts number text text [] := by
  intro back
  have hmem {before : Text} (hbefore : '(' ∉ before) : '(' ∉ text ++ before := by
    simp [h, hbefore]
  -- The first bracket of the whole text is the first bracket behind it.
  cases hcut : cut? '(' back with
  | none =>
    have hback := cut?_eq_none_iff.mp hcut
    rw [liftCompoundsFrom_of_not_mem (hmem hback), liftCompoundsFrom_of_not_mem hback]
    rfl
  | some pair =>
    obtain ⟨before, behind⟩ := pair
    have hbefore : '(' ∉ before := not_mem_of_cut?_eq_some hcut
    obtain rfl := cut?_eq_some hcut
    rw [← List.append_assoc]
    cases hclose : closing? 1 behind with
    | none =>
      rw [liftCompoundsFrom_open (hmem hbefore) hclose, liftCompoundsFrom_open hbefore hclose]
      simp
    | some pair =>
      obtain ⟨inner, after⟩ := pair
      rw [liftCompoundsFrom_closed (hmem hbefore) hclose, liftCompoundsFrom_closed hbefore hclose]
      by_cases hseparator : hasSeparator ('(' :: (inner ++ [')'])) = true
      · simp [hseparator]
      · simp [hseparator]

/-- Brackets without separator stay. -/
theorem pair (hinner : IsBalanced inner)
    (hseparator : hasSeparator ('(' :: (inner ++ [')'])) = false) :
    Lifts number ('(' :: (inner ++ [')'])) ('(' :: (inner ++ [')'])) [] := by
  intro back
  have hstep : liftCompoundsFrom number ([] ++ '(' :: (inner ++ ')' :: back)) = _ :=
    liftCompoundsFrom_closed List.not_mem_nil (closing?_of_isBalanced hinner back)
  rw [if_neg (by simp [hseparator])] at hstep
  -- The bracket is the first one, with nothing in front of it.
  have htext : '(' :: (inner ++ [')']) ++ back = [] ++ '(' :: (inner ++ ')' :: back) := by simp
  rw [htext, hstep]
  rfl

/-- Brackets with a separator leave their mark. -/
theorem compound (hinner : IsBalanced inner)
    (hseparator : hasSeparator ('(' :: (inner ++ [')'])) = true) :
    Lifts number ('(' :: (inner ++ [')'])) (compoundMark number) [trim inner] := by
  intro back
  have hstep : liftCompoundsFrom number ([] ++ '(' :: (inner ++ ')' :: back)) = _ :=
    liftCompoundsFrom_closed List.not_mem_nil (closing?_of_isBalanced hinner back)
  rw [if_pos hseparator] at hstep
  have htext : '(' :: (inner ++ [')']) ++ back = [] ++ '(' :: (inner ++ ')' :: back) := by simp
  rw [htext, hstep]
  rfl

/-- What can be lifted is what the compiler lifts. -/
theorem lift (h : Lifts 0 text lifted compounds) : liftCompounds text = ⟨lifted, compounds⟩ := by
  have hend := h []
  rw [liftCompoundsFrom_of_not_mem List.not_mem_nil] at hend
  simpa [liftCompounds] using hend

end Lifts

/-- The number of a compound is read back from its mark. -/
theorem compoundNumber?_compoundMark (number : Nat) :
    compoundNumber? (compoundMark number) = some number := by
  -- The closing bracket is looked for from the end.
  have hreverse : (Decimal.writeNat number ++ [']']).reverse =
      ']' :: (Decimal.writeNat number).reverse := by simp
  rw [compoundMark, List.cons_append, compoundNumber?, hreverse]
  simp only [List.reverse_reverse, Decimal.readNat?_writeNat]

end SignalScript
