import Mathlib.Data.List.Basic
import SignalScript.Proofs.Condition.Bracket
import SignalScript.Proofs.Condition.Counting
import SignalScript.Proofs.Fuel.Procedure
import SignalScript.Proofs.Text.Trimming

/-!
# Conditions within fuel

Compounds are lifted behind shorter and shorter texts, brackets are taken off one pair at a time, a
text is split once for each of its separators, and a condition in a compound is shorter than the
text that the compound is lifted from. The text that is split holds a number for every compound and
may be longer than the text it was made of, but it has no more separators and no more brackets, so
fuel above the length of a condition is enough for all of this.

## Main definitions

* `lifting`, `splitting`, `stripping` — the loops over a text, step by step
* `Condition.listReading` — reads a condition, when someone else reads its compounds
* `Condition.readWithin` — reads the condition of an `IF` within some fuel

## Main results

* `Condition.readListWithin_eq`, `Condition.readWithin_eq` — fuel above the length of a text is
  enough to read it
-/

namespace SignalScript

open Text

/-! ### Loops over a text -/

section Loops

variable {ν : Type}

/-- Lifts one compound out of a text, and the others out of the text behind it. -/
def lifting : Procedure ν (Nat × Text) fun _ => Lifted :=
  fun self (number, text) =>
    match Text.cut? '(' text with
    | none => pure ⟨text, []⟩
    | some (before, behind) =>
      match Text.closing? 1 behind with
      | none => pure ⟨text, []⟩
      | some (inner, after) =>
        let pair := '(' :: inner ++ [')']
        if hasSeparator pair then do
          let lifted ← self (number + 1, after)
          pure ⟨before ++ compoundMark number ++ lifted.text, trim inner :: lifted.compounds⟩
        else do
          let lifted ← self (number, after)
          pure ⟨before ++ pair ++ lifted.text, lifted.compounds⟩

/-- The text without its compounds, and the compounds, within some fuel. -/
def liftCompoundsWithin (fuel : Nat) (text : Text) : Limited ν Lifted :=
  lifting.within fuel (0, text)

/-- The text in front of the first separator, its join, and the text behind it. -/
def cutSeparator? : Text → Option (Text × Join × Text)
  | [] => none
  | c :: rest =>
    match separator? (c :: rest) with
    | some (join, behind) => some ([], join, behind)
    | none => (cutSeparator? rest).map fun (before, join, behind) => (c :: before, join, behind)

/-- Splits a text at its first separator, and the text behind it at the others. -/
def splitting : Procedure ν Text fun _ => Parts :=
  fun self text =>
    match cutSeparator? text with
    | none => pure ⟨text, []⟩
    | some (before, join, behind) => do
      let parts ← self behind
      pure ⟨before, (join, parts.first) :: parts.later⟩

/-- The parts of a text between its separators, within some fuel. -/
def splitSeparatorsWithin (fuel : Nat) (text : Text) : Limited ν Parts := splitting.within fuel text

/-- Takes off one pair of brackets around a whole text, and then the others. -/
def stripping : Procedure ν Text fun _ => Text :=
  fun self text =>
    match enclosed? text with
    | some (inner, []) => self (trim inner)
    | _ => pure text

/-- The text without the brackets around the whole of it, within some fuel. -/
def stripBracketsWithin (fuel : Nat) (text : Text) : Limited ν Text := stripping.within fuel text

variable {fuel : Nat} {text : Text}

/-- Every step goes on in the text behind a bracket, which is shorter. -/
theorem liftCompoundsWithin_eq (h : text.length < fuel) :
    (liftCompoundsWithin fuel text : Limited ν Lifted) = .done (pure (liftCompounds text)) := by
  refine Procedure.within_eq (fun call => pure (liftCompoundsFrom call.1 call.2))
    (fun call => call.2.length) ?_ (0, text) h h
  rintro ⟨number, text⟩ self - hself
  simp only [lifting]
  cases hcut : Text.cut? '(' text with
  | none =>
    rw [liftCompoundsFrom_of_not_mem (cut?_eq_none_iff.mp hcut)]
    rfl
  | some pair =>
    obtain ⟨before, behind⟩ := pair
    have hlength := Text.cut?_length hcut
    have hbefore := not_mem_of_cut?_eq_some hcut
    obtain rfl := cut?_eq_some hcut
    cases hclose : closing? 1 behind with
    | none =>
      simp only [hclose]
      rw [liftCompoundsFrom_open hbefore hclose]
      rfl
    | some pair =>
      obtain ⟨inner, after⟩ := pair
      -- Whether the brackets hold a compound or not, lifting goes on behind them.
      have hshorter := closing?_length hclose
      rw [liftCompoundsFrom_closed hbefore hclose]
      simp only [hclose, List.cons_append]
      split
      · rw [hself (number + 1, after) (by simp only; omega)]
        exact Limited.done_bind_all fun _ => rfl
      · rw [hself (number, after) (by simp only; omega)]
        exact Limited.done_bind_all fun _ => rfl

/-- Splitting goes on behind the first separator. -/
theorem splitSeparators_of_cut {before behind : Text} {join : Join}
    (h : cutSeparator? text = some (before, join, behind)) : splitSeparators text =
      ⟨before, (join, (splitSeparators behind).first) :: (splitSeparators behind).later⟩ := by
  induction text generalizing before with
  | nil => cases h
  | cons c rest ih =>
    rw [cutSeparator?] at h
    split at h
    · rename_i hseparator
      cases h
      exact splitSeparators_separator hseparator
    · rename_i hseparator
      obtain ⟨⟨before, join, behind⟩, hrest, hcut⟩ := Option.map_eq_some_iff.mp h
      cases hcut
      rw [splitSeparators_cons hseparator, ih hrest]

theorem splitSeparators_of_cut_none (h : cutSeparator? text = none) :
    splitSeparators text = ⟨text, []⟩ := by
  induction text with
  | nil => exact splitSeparators_nil
  | cons c rest ih =>
    rw [cutSeparator?] at h
    split at h
    · cases h
    · rename_i hseparator
      rw [splitSeparators_cons hseparator, ih (Option.map_eq_none_iff.mp h)]

/-- Every step uses up one separator. -/
theorem splitSeparatorsWithin_eq (h : separatorCount text < fuel) :
    (splitSeparatorsWithin fuel text : Limited ν Parts) = .done (pure (splitSeparators text)) := by
  refine Procedure.within_eq (fun text => pure (splitSeparators text)) separatorCount ?_ text h h
  rintro text self - hself
  rw [splitting]
  cases hcut : cutSeparator? text with
  | none =>
    rw [splitSeparators_of_cut_none hcut]
    rfl
  | some cut =>
    obtain ⟨before, join, behind⟩ := cut
    have hparts := splitSeparators_of_cut hcut
    simp only
    rw [hself behind (by simp [separatorCount, hparts]), hparts]
    exact Limited.done_bind_all fun _ => rfl

/-- Every step uses up one opening bracket. -/
theorem stripBracketsWithin_eq (h : text.count '(' < fuel) :
    (stripBracketsWithin fuel text : Limited ν Text) = .done (pure (stripBrackets text)) := by
  refine Procedure.within_eq (fun text => pure (stripBrackets text)) (List.count '(') ?_ text h h
  rintro text self - hself
  rw [stripping]
  split
  · rename_i inner henclosed
    have hcount : (trim inner).count '(' < text.count '(' := by
      rw [enclosed?_eq_some henclosed]
      have := (trim_sublist inner).count_le '('
      simp
      omega
    rw [hself _ hcount, stripBrackets_of_enclosed henclosed]
  · rename_i henclosed
    rw [stripBrackets_of_not_enclosed henclosed]
    rfl

end Loops

/-! ### Conditions -/

namespace Condition

section Reading

variable (fuel : Nat) (locals : List Text)

/-- Reads a part, when `self` reads its compound if it is one. -/
def readPartWithin (self : Text → Limited Cause Condition) (compounds : List Text) (part : Text) :
    Limited Cause Condition := do
  let part := trim part
  if part.isEmpty then do
    Limited.done (note .emptyCondition)
    pure []
  else
    let (negated, rest) := negation part
    let front := if negated then [ConditionItem.negation] else []
    match (compoundNumber? rest).bind fun number => compounds[number]? with
    | some compound => do
      let items ← self compound
      pure (front ++ [.group items])
    | none => do
      let text ← stripBracketsWithin fuel rest
      let test ← Limited.done (Test.read locals text)
      pure (front ++ [.test test])

/-- The elements of the further parts of a condition, when `readPart` reads one part. -/
def readLaterWithin (readPart : Text → Limited Cause Condition) :
    List (Join × Text) → Limited Cause Condition
  | [] => pure []
  | (join, part) :: later => do
    let items ← readPart part
    let more ← readLaterWithin readPart later
    pure (.join join :: items ++ more)

/-- Reads a condition, when `self` reads its compounds. -/
def listReading : Procedure Cause Text fun _ => Condition :=
  fun self text => do
    let lifted ← liftCompoundsWithin fuel text
    let parts ← splitSeparatorsWithin fuel lifted.text
    let readPart := readPartWithin fuel locals self lifted.compounds
    let first ← readPart parts.first
    let later ← readLaterWithin readPart parts.later
    pure (first ++ later)

/-- Reads the condition of an `IF` within some fuel. -/
def readWithin (head : Text) : Limited Cause Condition :=
  match Text.cut? '(' head, Text.cutLast? ')' head with
  | some (before, _), some untilLast =>
    if untilLast.length ≤ before.length then do
      Limited.done (note (.malformedCondition head))
      pure []
    else
      (listReading fuel locals).within fuel (trim (untilLast.drop (before.length + 1)))
  | _, _ => do
    Limited.done (note (.missingCondition head))
    pure []

end Reading

section Enough

variable {fuel : Nat} {locals : List Text} {text part : Text} {compounds : List Text}
  {self : Text → Limited Cause Condition}

/-- A part is read within fuel, if its compound is. -/
theorem readPartWithin_eq
    (hself : ∀ compound ∈ compounds, self compound = .done (readList locals compound))
    (h : part.count '(' < fuel) : readPartWithin fuel locals self compounds part =
      .done (readPart locals (readCompound? locals compounds) part) := by
  rw [readPartWithin, readPart]
  simp only
  split
  · exact Limited.done_bind_all fun _ => rfl
  · have hcompound : (compoundNumber? (negation (trim part)).2).bind
          (readCompound? locals compounds) =
        ((compoundNumber? (negation (trim part)).2).bind fun number => compounds[number]?).map
          (readList locals) := by
      rw [Option.map_bind]
      rfl
    rw [hcompound]
    cases hfound : (compoundNumber? (negation (trim part)).2).bind fun number =>
      compounds[number]? with
    | some compound =>
      obtain ⟨number, -, hnumber⟩ := Option.bind_eq_some_iff.mp hfound
      simp only [Option.map_some]
      rw [hself compound (List.mem_of_getElem? hnumber)]
      exact Limited.done_bind_all fun _ => rfl
    | none =>
      have hcount := ((negation_sublist (trim part)).trans (trim_sublist part)).count_le '('
      simp only [Option.map_none]
      rw [stripBracketsWithin_eq (by omega)]
      exact Limited.done_bind_all fun _ => Limited.done_bind_all fun _ => rfl

theorem readLaterWithin_eq {readWithin : Text → Limited Cause Condition}
    {read : Text → Checked Condition} {parts : List (Join × Text)}
    (h : ∀ part ∈ parts, readWithin part.2 = .done (read part.2)) :
    readLaterWithin readWithin parts = .done (readLater read parts) := by
  induction parts with
  | nil => rfl
  | cons first parts ih =>
    obtain ⟨join, part⟩ := first
    obtain ⟨hfirst, hlater⟩ := List.forall_mem_cons.mp h
    rw [readLaterWithin, readLater, hfirst, ih hlater]
    exact Limited.done_bind_all fun _ => Limited.done_bind_all fun _ => rfl

/-- A mark holds no bracket that a compound or a part could begin with. -/
theorem not_mem_compoundMark (number : Nat) : '(' ∉ compoundMark number := by
  intro h
  rw [compoundMark, List.cons_append, List.mem_cons, List.mem_append, List.mem_singleton] at h
  rcases h with h | h | h
  · cases h
  · exact absurd (Decimal.isDigit_of_mem_writeNat h) Bool.false_ne_true
  · cases h

/-- Lifting adds no brackets. -/
theorem count_liftCompoundsFrom_le (number : Nat) (text : Text) :
    (liftCompoundsFrom number text).text.count '(' ≤ text.count '(' := by
  fun_induction liftCompoundsFrom number text with
  | case1 => exact Nat.le_refl _
  | case2 => exact Nat.le_refl _
  | case3 number text before behind hcut inner after hclose pair hseparator lifted ih =>
    have hlater : lifted.text.count '(' ≤ after.count '(' := ih
    rw [Text.cut?_eq_some hcut, Text.closing?_eq_some hclose]
    simp [List.count_eq_zero.mpr (not_mem_compoundMark number)]
    omega
  | case4 number text before behind hcut inner after hclose pair hseparator lifted ih =>
    have hlater : lifted.text.count '(' ≤ after.count '(' := ih
    rw [Text.cut?_eq_some hcut, Text.closing?_eq_some hclose]
    simp [pair]
    omega

/-- Fuel above the length of a text is enough to read it. -/
theorem readListWithin_eq (h : text.length < fuel) :
    (listReading fuel locals).within fuel text = .done (readList locals text) := by
  refine Procedure.within_eq (readList locals) List.length ?_ text h h
  rintro text self htext hself
  have hseparators : separatorCount (liftCompounds text).text ≤ text.length :=
    Nat.le_trans (separatorCount_liftCompoundsFrom_le 0 text) (separatorCount_le_length text)
  have hbrackets : (liftCompounds text).text.count '(' ≤ text.length :=
    Nat.le_trans (count_liftCompoundsFrom_le 0 text) List.count_le_length
  have hpart (part : Text) (hsublist : part.Sublist (liftCompounds text).text) :
      readPartWithin fuel locals self (liftCompounds text).compounds part =
        .done (readPart locals (readCompound? locals (liftCompounds text).compounds) part) := by
    have hcount := hsublist.count_le '('
    refine readPartWithin_eq (fun compound hcompound => ?_)
      (Nat.lt_of_le_of_lt (Nat.le_trans hcount hbrackets) htext)
    exact hself compound (length_of_mem_liftCompounds hcompound)
  obtain ⟨hfirst, hlater⟩ := sublist_splitSeparators (liftCompounds text).text
  rw [listReading, liftCompoundsWithin_eq htext, Limited.done_pure_bind,
    splitSeparatorsWithin_eq (Nat.lt_of_le_of_lt hseparators htext), Limited.done_pure_bind,
    readList_eq]
  simp only
  rw [hpart _ hfirst]
  refine Limited.done_bind_all fun first => ?_
  rw [readLaterWithin_eq fun part hmem => hpart part.2 (hlater part hmem)]
  exact Limited.done_bind_all fun _ => rfl

/-- Fuel above the length of a head is enough to read its condition. -/
theorem readWithin_eq (h : text.length < fuel) :
    readWithin fuel locals text = .done (read locals text) := by
  rw [readWithin, read]
  cases hcut : cut? '(' text with
  | none => exact Limited.done_bind_all fun _ => rfl
  | some pair =>
    cases hlast : cutLast? ')' text with
    | none => exact Limited.done_bind_all fun _ => rfl
    | some untilLast =>
      simp only
      split
      · exact Limited.done_bind_all fun _ => rfl
      · have huntil := length_of_cutLast? hlast
        have htrim := length_trim_le (untilLast.drop (pair.1.length + 1))
        rw [List.length_drop] at htrim
        exact readListWithin_eq (by omega)

end Enough

end Condition

end SignalScript
