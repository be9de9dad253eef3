import SignalScript.Proofs.Text.Trimming
import SignalScript.Expression.Operand

/-!
# Words

The names and numbers of expressions are made of letters, digits, underscores and characters
outside ASCII. No blank, no bracket and no operator is among these, so a word ends where anything
else follows.

## Main definitions

* `Text.isNameChar` — a character of a word
* `Text.IsWord` — a text of such characters
* `Text.isIdentifier` — a word that does not begin with a digit
* `Text.EndsWord` — a text that ends a word in front of it

## Main results

* `Text.negation_word` — no word but `NOT` is read as a negation
-/

namespace SignalScript.Text

/-- The character is a letter, a digit, an underscore or outside ASCII, and no blank. -/
def isNameChar (c : Char) : Bool := (c.isAlphanum || c = '_' || 128 ≤ c.toNat) && !isBlank c

/-- The text holds something, and only characters of words. -/
def IsWord (text : Text) : Prop := text ≠ [] ∧ text.all isNameChar = true

instance (text : Text) : Decidable (IsWord text) := inferInstanceAs (Decidable (_ ∧ _))

/-- The text is a word that does not begin with a digit. -/
def isIdentifier : Text → Bool
  | [] => false
  | c :: rest => !c.isDigit && (c :: rest).all isNameChar

/-- A word in front of the text ends there. -/
def EndsWord (text : Text) : Prop := ∀ c ∈ text.head?, isNameChar c = false

section Words

variable {c : Char} {word text : Text}

theorem isBlank_of_isNameChar (h : isNameChar c = true) : isBlank c = false := by
  simp only [isNameChar, Bool.and_eq_true, Bool.not_eq_true'] at h
  exact h.2

theorem isNameChar_of_isDigit (h : c.isDigit = true) : isNameChar c = true := by
  have hblank : isBlank c = false := by
    rw [Char.isDigit_iff_toNat] at h
    have hbounds : 48 ≤ c.toNat ∧ c.toNat ≤ 57 := h
    simp only [isBlank, inRanges, blankRanges, List.any_cons, List.any_nil, Bool.or_false,
      Bool.or_eq_false_iff, Bool.and_eq_false_iff, decide_eq_false_iff_not]
    omega
  simp [isNameChar, Char.isAlphanum, h, hblank]

/-- Characters of words and other characters differ. -/
theorem ne_of_isNameChar {d : Char} (hc : isNameChar c = true) (hd : isNameChar d = false) :
    c ≠ d := by
  rintro rfl
  rw [hc] at hd
  cases hd

namespace IsWord

theorem isNameChar (h : IsWord word) (hc : c ∈ word) : isNameChar c = true :=
  List.all_eq_true.mp h.2 c hc

theorem not_mem (h : IsWord word) (hc : Text.isNameChar c = false) : c ∉ word :=
  fun hmem => ne_of_isNameChar (h.isNameChar hmem) hc rfl

theorem isTight (h : IsWord word) : IsTight word := by
  have hhead := isBlank_of_isNameChar (h.isNameChar (List.head_mem h.1))
  have hlast := isBlank_of_isNameChar (h.isNameChar (List.getLast_mem h.1))
  exact isTight_iff.mpr ⟨_, _, List.head?_eq_some_head h.1, List.getLast?_eq_some_getLast h.1,
    hhead, hlast⟩

theorem exists_cons (h : IsWord word) :
    ∃ c rest, word = c :: rest ∧ Text.isNameChar c = true := by
  obtain ⟨c, rest, rfl⟩ := List.exists_cons_of_ne_nil h.1
  exact ⟨c, rest, rfl, h.isNameChar List.mem_cons_self⟩

end IsWord

theorem negation_sublist (text : Text) : (negation text).2.Sublist text := by
  have hstart (rest : Text) : (trimStart rest).Sublist rest := List.dropWhile_sublist _
  rw [negation.eq_def]
  split
  · exact (hstart _).cons _
  · exact ((((hstart _).cons _).cons _).cons _).cons _
  · exact List.Sublist.refl _

theorem isWord_of_isIdentifier (h : isIdentifier word = true) : IsWord word := by
  cases word with
  | nil => cases h
  | cons c rest =>
    simp only [isIdentifier, Bool.and_eq_true] at h
    exact ⟨List.cons_ne_nil _ _, h.2⟩

theorem endsWord_nil : EndsWord [] := fun _ h => by cases h

theorem endsWord_cons (h : isNameChar c = false) : EndsWord (c :: text) := by
  intro d hd
  obtain rfl := Option.some.inj hd
  exact h

theorem EndsWord.spaces (h : EndsWord text) (gap : Nat) : EndsWord (spaces gap ++ text) := by
  cases gap with
  | zero => exact h
  | succ gap => exact endsWord_cons rfl

/-- What is no character of words ends the word in front of it. -/
theorem takeWhile_word (h : IsWord word) (htext : EndsWord text) :
    (word ++ text).takeWhile isNameChar = word := by
  rw [List.takeWhile_append_of_pos fun c hc => h.isNameChar hc]
  cases text with
  | nil => simp
  | cons c rest => simp [htext c rfl]

/-- No word but `NOT` is read as a negation. -/
theorem negation_word (h : IsWord word) (hnot : word ≠ "NOT".toList) (htext : EndsWord text) :
    negation (word ++ text) = (false, word ++ text) := by
  have hword := takeWhile_word h htext
  -- A negation would be the word itself, or stand in front of it.
  rw [negation.eq_def]
  split
  · rename_i rest heq
    rw [heq] at hword
    exact absurd hword.symm h.1
  · rename_i rest heq
    rw [heq] at hword
    exact absurd hword.symm hnot
  · rfl

end Words

end SignalScript.Text
