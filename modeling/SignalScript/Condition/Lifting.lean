import SignalScript.Condition
import SignalScript.Text.Bracket
import SignalScript.Text.Decimal

/-!
# Separators and compounds of a condition

The parts of a condition are separated by `&&`, `||`, ` AND ` and ` OR `, found from left to
right. Before the text is split, every outermost pair of brackets with a separator inside, a
compound, is lifted out: it leaves its number in square brackets, and its text is kept aside.

## Main definitions

* `separator?` — the separator that a text begins with
* `splitSeparators` — the parts of a text and the joins between them
* `Lifted`, `liftCompounds` — a text without its compounds, and their texts
* `compoundNumber?` — the number that a part consists of

## Main results

* `length_of_mem_liftCompounds` — a compound is shorter than the text it is lifted from
-/

namespace SignalScript

/-- The separator that a text begins with, and what follows it. -/
def separator? : Text → Option (Join × Text)
  | '&' :: '&' :: rest => some (.and, rest)
  | '|' :: '|' :: rest => some (.or, rest)
  | ' ' :: 'A' :: 'N' :: 'D' :: ' ' :: rest => some (.and, rest)
  | ' ' :: 'O' :: 'R' :: ' ' :: rest => some (.or, rest)
  | _ => none

/-- The text holds a separator. -/
def hasSeparator : Text → Bool
  | [] => false
  | c :: rest => (separator? (c :: rest)).isSome || hasSeparator rest

/-- The first part of a text, and the later parts with the join in front of each. -/
structure Parts where
  first : Text
  later : List (Join × Text)
  deriving DecidableEq, Repr

theorem length_of_separator? {text rest : Text} {join : Join}
    (h : separator? text = some (join, rest)) : rest.length < text.length := by
  unfold separator? at h
  split at h <;> simp_all <;> omega

/-- Splits a text at its separators. -/
def splitSeparators (text : Text) : Parts :=
  match _h : separator? text with
  | some (join, rest) =>
    let parts := splitSeparators rest
    ⟨[], (join, parts.first) :: parts.later⟩
  | none =>
    match text with
    | [] => ⟨[], []⟩
    | c :: rest =>
      let parts := splitSeparators rest
      { parts with first := c :: parts.first }
termination_by text.length
decreasing_by
  · exact length_of_separator? _h
  · simp

/-- A text without its compounds. -/
structure Lifted where
  text : Text
  /-- The texts inside the brackets of the compounds, by number. -/
  compounds : List Text
  deriving DecidableEq, Repr

/-- The mark that the compound of a given number leaves. -/
def compoundMark (number : Nat) : Text := '[' :: Decimal.writeNat number ++ [']']

/-- Lifts the compounds out of a text, numbered from `number`. -/
def liftCompoundsFrom (number : Nat) (text : Text) : Lifted :=
  match _hcut : Text.cut? '(' text with
  | none => ⟨text, []⟩
  | some (before, behind) =>
    match _hclose : Text.closing? 1 behind with
    | none => ⟨text, []⟩
    | some (inner, after) =>
      let pair := '(' :: inner ++ [')']
      if hasSeparator pair then
        let lifted := liftCompoundsFrom (number + 1) after
        ⟨before ++ compoundMark number ++ lifted.text, Text.trim inner :: lifted.compounds⟩
      else
        let lifted := liftCompoundsFrom number after
        ⟨before ++ pair ++ lifted.text, lifted.compounds⟩
termination_by text.length
decreasing_by
  all_goals
    have := Text.cut?_length _hcut
    have := Text.closing?_length _hclose
    omega

/-- Lifts the compounds out of a text. -/
def liftCompounds (text : Text) : Lifted := liftCompoundsFrom 0 text

/-- A compound is shorter than the text it is lifted from. -/
theorem length_of_mem_liftCompoundsFrom {number : Nat} {text compound : Text}
    (h : compound ∈ (liftCompoundsFrom number text).compounds) :
    compound.length < text.length := by
  fun_induction liftCompoundsFrom number text with
  | case1 => simp at h
  | case2 => simp at h
  | case3 number text before behind hcut inner after hclose pair hsep lifted ih =>
    have := Text.cut?_length hcut
    have := Text.closing?_length hclose
    rcases List.mem_cons.mp h with rfl | h
    · have := Text.length_trim_le inner
      omega
    · have := ih h
      omega
  | case4 number text before behind hcut inner after hclose pair hsep lifted ih =>
    have := Text.cut?_length hcut
    have := Text.closing?_length hclose
    have := ih h
    omega

/-- The text of a compound is shorter than the text it is lifted out of, so that reading it ends. -/
theorem length_of_mem_liftCompounds {text compound : Text}
    (h : compound ∈ (liftCompounds text).compounds) : compound.length < text.length :=
  length_of_mem_liftCompoundsFrom h

/-- The number that a part consists of, in square brackets. -/
def compoundNumber? (part : Text) : Option Nat :=
  match part with
  | '[' :: rest =>
    match rest.reverse with
    | ']' :: digits => Decimal.readNat? digits.reverse
    | _ => none
  | _ => none

end SignalScript
