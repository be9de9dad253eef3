import SignalScript.Source.Line
import SignalScript.Diagnostic

/-!
# Lines in hand

While a body is structured, the lines still to be read form a list. Text that is left over behind
a boundary goes back to the front of it as a line of its own. The weight of a list of lines
counts each line and each of its characters; joining two lines with a space keeps it, and taking
a character away lowers it, so it bounds every reader of lines.

## Main definitions

* `weight` — the room that lines take
* `pushRest` — puts left-over text back, unless it is blank
* `Taken` — what was read from the front of some lines, and the lines behind it

## Main results

* `weight_pushRest_le` — text put back takes no more room than it did
-/

namespace SignalScript

/-- The room that lines take: one for each line and one for each of its characters. -/
def weight : List LogicalLine → Nat
  | [] => 0
  | line :: rest => line.text.length + 1 + weight rest

/-- The lines with `text`, trimmed, in front as a line of its own, unless it is blank. -/
def pushRest (text : Text) (number : Nat) (lines : List LogicalLine) : List LogicalLine :=
  let text := Text.trim text
  if text.isEmpty then lines else ⟨text, number⟩ :: lines

@[simp] theorem weight_cons (line : LogicalLine) (rest : List LogicalLine) :
    weight (line :: rest) = line.text.length + 1 + weight rest := rfl

@[simp] theorem weight_nil : weight [] = 0 := rfl

theorem le_weight_cons {n : Nat} {first : LogicalLine} {lines : List LogicalLine}
    (h : n ≤ first.text.length + weight lines) : n ≤ weight (first :: lines) := by
  rw [weight_cons]
  omega

/-- Text put back takes no more room than it did. -/
theorem weight_pushRest_le (text : Text) (number : Nat) (lines : List LogicalLine) :
    weight (pushRest text number lines) ≤ text.length + 1 + weight lines := by
  simp only [pushRest]
  split
  · omega
  · have := Text.length_trim_le text
    simp only [weight_cons]
    omega

/-- What was read from the front of some lines, the problems met on the way, and the lines behind
it, which take no more room than `room`. -/
structure Taken (α : Type) (room : Nat) where
  value : α
  problems : List Problem
  rest : List LogicalLine
  fits : weight rest ≤ room

end SignalScript
