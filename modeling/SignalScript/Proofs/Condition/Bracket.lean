import SignalScript.Proofs.Text.Cutting
import SignalScript.Condition.Reading

/-!
# Brackets around conditions

The brackets that enclose a condition are not part of it, and a compound is what its number stands
for.

## Main definitions

* `Condition.readCompound?` — the conditions of lifted compounds, by number
* `Condition.between?` — the text between the brackets of an `IF`

## Main results

* `Condition.readList_eq` — a condition is read part by part, with its compounds by number
* `Condition.read_of_between?` — the condition of an `IF` is what stands between its brackets
* `Condition.notes_read_of_between?` — an `IF` without brackets is noted
-/

namespace SignalScript

open Text

section Stripping

variable {text inner : Text}

/-- One pair of brackets around the whole text is taken off. -/
theorem stripBrackets_of_enclosed (h : enclosed? text = some (inner, [])) :
    stripBrackets text = stripBrackets (trim inner) := by
  rw [stripBrackets.eq_def]
  split
  · rename_i hfound
    cases h.symm.trans hfound
    rfl
  · rename_i hnone
    exact absurd h (hnone inner)

/-- A text that is not in brackets as a whole is left as it is. -/
theorem stripBrackets_of_not_enclosed (h : ∀ inner, enclosed? text ≠ some (inner, [])) :
    stripBrackets text = text := by
  rw [stripBrackets.eq_def]
  split
  · rename_i hfound
    exact absurd hfound (h _)
  · rfl

end Stripping

namespace Condition

/-- The conditions of compounds, by number. -/
def readCompound? (locals : List Text) (compounds : List Text) (number : Nat) :
    Option (Checked Condition) :=
  compounds[number]?.map (readList locals)

/-- A condition is read by lifting its compounds, splitting what is left and reading the parts. -/
theorem readList_eq (locals : List Text) (text : Text) : readList locals text = (do
    let lifted := liftCompounds text
    let parts := splitSeparators lifted.text
    let readPart := readPart locals (readCompound? locals lifted.compounds)
    let first ← readPart parts.first
    let later ← readLater readPart parts.later
    pure (first ++ later)) := by
  have hgroup : (fun number => if h : number < (liftCompounds text).compounds.length then
        some (readList locals (liftCompounds text).compounds[number]) else none) =
      readCompound? locals (liftCompounds text).compounds := by
    funext number
    rw [readCompound?]
    split
    · rename_i h
      rw [List.getElem?_eq_getElem h, Option.map_some]
    · rename_i h
      rw [List.getElem?_eq_none (Nat.le_of_not_lt h), Option.map_none]
  rw [readList, hgroup]

/-- The text between the first opening and the last closing bracket. -/
def between? (head : Text) : Option Text :=
  (cut? '(' head).bind fun (_, behind) => cutLast? ')' behind

/-- The condition of an `IF` is what stands between its first and its last bracket. -/
theorem read_of_between? {head condition : Text} (h : between? head = some condition)
    (locals : List Text) : read locals head = readList locals (trim condition) := by
  obtain ⟨⟨before, behind⟩, hcut, hlast⟩ := Option.bind_eq_some_iff.mp h
  have huntil : cutLast? ')' head = some ((before ++ ['(']) ++ condition) := by
    rw [cut?_eq_some hcut, List.append_cons]
    exact cutLast?_append_of_some _ hlast
  have hbehind : ¬ ((before ++ ['(']) ++ condition).length ≤ before.length := by simp
  have hinner : ((before ++ ['(']) ++ condition).drop (before.length + 1) = condition := by simp
  simp only [read, hcut, huntil, if_neg hbehind, hinner]

/-- Without brackets around a condition there is a note. -/
theorem notes_read_of_between? {head : Text} (h : between? head = none) (locals : List Text) :
    (read locals head).notes ≠ [] := by
  rw [read]
  cases hcut : cut? '(' head with
  | none => simp
  | some pair =>
    obtain ⟨before, behind⟩ := pair
    have hnone : cutLast? ')' behind = none := by simpa [between?, hcut] using h
    -- The last closing bracket, if there is one, stands in front of the first opening one.
    have huntil : cutLast? ')' head = cutLast? ')' before := by
      have hopen : cutLast? ')' ('(' :: behind) = none := by
        rw [cutLast?, hnone]
        rfl
      rw [cut?_eq_some hcut, cutLast?_append_of_none before hopen]
    rw [huntil]
    cases hlast : cutLast? ')' before with
    | none => simp
    | some untilLast => simp [Nat.le_of_lt (length_of_cutLast? hlast)]

/-- The condition of an `IF` is what its brackets enclose, whatever stands in front of them. -/
theorem read_brackets {front : Text} (hfront : '(' ∉ front) (locals : List Text)
    (condition : Text) :
    read locals (front ++ '(' :: (condition ++ [')'])) = readList locals (trim condition) := by
  refine read_of_between? ?_ locals
  rw [between?, cut?_append_cons hfront]
  exact cutLast?_append_cons condition List.not_mem_nil

end Condition

end SignalScript
