import Mathlib.Data.List.Basic

/-!
# Places in a list

An element of a list has a front and a back. A statement about every element with its front and its
back is proved from one end of the list to the other, and part by part.

## Main results

* `forall_split_cons` — the first element, and the elements behind it
* `append_eq_append_cons` — an element of two lists side by side stands in one of them
-/

namespace SignalScript

variable {α : Type} {a : α} {list front back front' back' : List α}

/-- What holds of the first element and of the elements behind it holds of all of them. -/
theorem forall_split_cons {P : List α → α → List α → Prop} (hfirst : P [] a list)
    (hbehind : ∀ front b back, list = front ++ b :: back → P (a :: front) b back) :
    ∀ front b back, a :: list = front ++ b :: back → P front b back := by
  intro front b back h
  cases front with
  | nil =>
    obtain ⟨rfl, rfl⟩ := List.cons.inj h
    exact hfirst
  | cons c front =>
    obtain ⟨rfl, hlist⟩ := List.cons.inj h
    exact hbehind front b back hlist

/-- An element of two lists side by side stands in the first or in the second. -/
theorem append_eq_append_cons (h : front ++ back = front' ++ a :: back') :
    (∃ rest, front = front' ++ a :: rest ∧ back' = rest ++ back) ∨
      ∃ rest, front' = front ++ rest ∧ back = rest ++ a :: back' := by
  rcases List.append_eq_append_iff.mp h with ⟨rest, hfront, hback⟩ | ⟨rest, hfront, hback⟩
  · exact Or.inr ⟨rest, hfront, hback⟩
  · -- The element itself may be the first behind the front.
    cases rest with
    | nil => exact Or.inr ⟨[], by simpa using hfront.symm, by simpa using hback.symm⟩
    | cons b rest =>
      obtain ⟨rfl, rfl⟩ := List.cons.inj hback
      exact Or.inl ⟨rest, hfront, rfl⟩

end SignalScript
