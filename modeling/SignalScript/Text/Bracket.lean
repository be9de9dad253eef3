import SignalScript.Text.Basic

/-!
# Matching brackets

A round bracket is matched by counting: the partner of the first opening bracket is the closing
bracket at which as many have been closed as opened. A closing bracket in front of any opening
one matches nothing and ends the search.

## Main definitions

* `Text.closing?` — the text up to the matching bracket and the text behind it
* `Text.enclosed?` — the same for a text that begins with a bracket, without that bracket

## Main results

* `Text.closing?_length`, `Text.enclosed?_length` — the two parts and the brackets make up the text
-/

namespace SignalScript.Text

/-- The parts before and after the closing bracket that brings the number of open brackets from
`depth` back to zero. -/
def closing? : Nat → Text → Option (Text × Text)
  | _, [] => none
  | depth, c :: rest =>
    if c = '(' then (closing? (depth + 1) rest).map fun (before, after) => (c :: before, after)
    else if c = ')' then
      match depth with
      | 0 => none
      | 1 => some ([], rest)
      | depth + 2 => (closing? (depth + 1) rest).map fun (before, after) => (c :: before, after)
    else (closing? depth rest).map fun (before, after) => (c :: before, after)

/-- The text inside a leading pair of brackets and the text behind it. -/
def enclosed? : Text → Option (Text × Text)
  | '(' :: rest => closing? 1 rest
  | _ => none

/-- The two parts and the closing bracket make up the text. -/
theorem closing?_eq_some {depth : Nat} {text before after : Text}
    (h : closing? depth text = some (before, after)) : text = before ++ ')' :: after := by
  induction text generalizing depth before with
  | nil => simp [closing?] at h
  | cons c rest ih =>
    unfold closing? at h
    split at h
    · obtain ⟨⟨b, a⟩, hb, hab⟩ := Option.map_eq_some_iff.mp h
      simp only [Prod.mk.injEq] at hab
      obtain ⟨rfl, rfl⟩ := hab
      rw [ih hb, List.cons_append]
    · split at h
      · rename_i hc
        split at h
        · simp at h
        · simp_all
        · obtain ⟨⟨b, a⟩, hb, hab⟩ := Option.map_eq_some_iff.mp h
          simp only [Prod.mk.injEq] at hab
          obtain ⟨rfl, rfl⟩ := hab
          rw [ih hb, List.cons_append]
      · obtain ⟨⟨b, a⟩, hb, hab⟩ := Option.map_eq_some_iff.mp h
        simp only [Prod.mk.injEq] at hab
        obtain ⟨rfl, rfl⟩ := hab
        rw [ih hb, List.cons_append]

theorem closing?_length {depth : Nat} {text before after : Text}
    (h : closing? depth text = some (before, after)) :
    text.length = before.length + after.length + 1 := by
  rw [closing?_eq_some h]
  simp only [List.length_append, List.length_cons]
  omega

/-- A text that begins with a matched bracket is the pair, what it encloses, and what follows. -/
theorem enclosed?_eq_some {text inner after : Text} (h : enclosed? text = some (inner, after)) :
    text = '(' :: (inner ++ ')' :: after) := by
  unfold enclosed? at h
  split at h
  · rw [closing?_eq_some h]
  · simp at h

theorem enclosed?_length {text inner after : Text} (h : enclosed? text = some (inner, after)) :
    text.length = inner.length + after.length + 2 := by
  rw [enclosed?_eq_some h]
  simp only [List.length_append, List.length_cons]
  omega

end SignalScript.Text
