import SignalScript.Proofs.Splitting
import SignalScript.Proofs.Text.Word
import SignalScript.Condition.Lifting

/-!
# Texts without separators

Where no separator begins, a condition is not split. A text of words and signs is solid: none of
its spaces stands in front of an `AND` or an `OR`, so it stays in one part.

## Main definitions

* `NoSeparator` — no separator begins in a text, given the text behind it
* `IsSolid` — no separator begins in a text, whatever ends its last word

## Main results

* `splitSeparators_append` — a text without separators goes into the first part
* `IsSolid.word`, `IsSolid.cons`, `IsSolid.append` — how solid texts are put together
-/

namespace SignalScript

open Text

/-- No separator begins in the text when `back` stands behind it. -/
def NoSeparator (text back : Text) : Prop :=
  ∀ front c rest, text = front ++ c :: rest → separator? (c :: (rest ++ back)) = none

/-- The text begins with a word that joins. -/
def startsJoin (text : Text) : Bool :=
  "AND ".toList.isPrefixOf text || "OR ".toList.isPrefixOf text

section Separators

variable {text front back : Text} {c : Char}

theorem noSeparator_nil : NoSeparator [] back := fun front c rest h => by simp at h

/-- Two texts in which no separator begins, the first in front of the second, have none together. -/
theorem NoSeparator.append (hfront : NoSeparator front (text ++ back))
    (htext : NoSeparator text back) : NoSeparator (front ++ text) back := by
  intro before c rest h
  rcases append_eq_append_cons h with ⟨middle, hbefore, rfl⟩ | ⟨middle, -, hbehind⟩
  · rw [List.append_assoc]
    exact hfront before c middle hbefore
  · exact htext middle c rest hbehind

/-- A separator begins with a space, an ampersand or a bar. -/
theorem separator?_of_ne (hspace : c ≠ ' ') (hand : c ≠ '&') (hor : c ≠ '|') (rest : Text) :
    separator? (c :: rest) = none := by
  rw [separator?.eq_def]
  split <;> simp_all

theorem NoSeparator.cons (hc : separator? (c :: (text ++ back)) = none)
    (htext : NoSeparator text back) : NoSeparator (c :: text) back :=
  forall_split_cons hc htext

/-- A space that no joining word follows begins no separator. -/
theorem separator?_space (h : startsJoin text = false) : separator? (' ' :: text) = none := by
  rw [separator?.eq_def]
  split
  · simp_all
  · simp_all
  · rename_i rest heq
    obtain rfl := (List.cons.inj heq).2
    cases h
  · rename_i rest heq
    obtain rfl := (List.cons.inj heq).2
    cases h
  · rfl

theorem startsJoin_of_head {c : Char} (hand : c ≠ 'A') (hor : c ≠ 'O') (rest : Text) :
    startsJoin (c :: rest) = false := by
  have ha : (c == 'A') = false := by simpa using hand
  have ho : (c == 'O') = false := by simpa using hor
  have ha' : ('A' == c) = false := by simpa using hand.symm
  have ho' : ('O' == c) = false := by simpa using hor.symm
  simp [startsJoin, List.isPrefixOf, ha', ho']

/-- Only the last of several blanks could begin a separator, together with what follows. -/
theorem noSeparator_blanks (h : startsJoin back = false) (hblank : ∀ c ∈ text, isBlank c = true) :
    NoSeparator text back := by
  induction text with
  | nil => exact noSeparator_nil
  | cons c rest ih =>
    obtain ⟨hc, hrest⟩ := List.forall_mem_cons.mp hblank
    have hne {d : Char} (hd : isBlank d = false) : c ≠ d := by
      rintro rfl
      rw [hc] at hd
      cases hd
    refine NoSeparator.cons ?_ (ih hrest)
    by_cases hspace : c = ' '
    · subst hspace
      refine separator?_space ?_
      cases rest with
      | nil => exact h
      | cons d rest =>
        have hd := hrest d List.mem_cons_self
        refine startsJoin_of_head ?_ ?_ _ <;>
        · rintro rfl
          cases hd
    · exact separator?_of_ne hspace (hne rfl) (hne rfl) _

/-- No separator begins in a row of spaces, unless the word of a join follows. -/
theorem noSeparator_spaces (h : startsJoin back = false) (gap : Nat) :
    NoSeparator (spaces gap) back :=
  noSeparator_blanks h fun _ => isBlank_of_mem_spaces

/-- No separator begins in a word. -/
theorem noSeparator_word (h : IsWord text) : NoSeparator text back := by
  rintro front c rest rfl
  have hc : isNameChar c = true := h.isNameChar (List.mem_append_right _ List.mem_cons_self)
  exact separator?_of_ne (ne_of_isNameChar hc rfl) (ne_of_isNameChar hc rfl)
    (ne_of_isNameChar hc rfl) _

/-- A text without separators goes into the first part. -/
theorem splitSeparators_append (h : NoSeparator text back) :
    splitSeparators (text ++ back) =
      { splitSeparators back with first := text ++ (splitSeparators back).first } := by
  induction text with
  | nil => rfl
  | cons c rest ih =>
    have hc := h [] c rest rfl
    have hrest : NoSeparator rest back := fun before d more heq =>
      h (c :: before) d more (by rw [heq, List.cons_append])
    -- No separator begins here, so the character joins the first part.
    rw [List.cons_append, splitSeparators.eq_def]
    split
    · rename_i hsome
      cases hc.symm.trans hsome
    · simp only [ih hrest, List.cons_append]

/-- At a separator the first part ends. -/
theorem splitSeparators_separator {join : Join} {rest : Text}
    (h : separator? text = some (join, rest)) :
    splitSeparators text =
      ⟨[], (join, (splitSeparators rest).first) :: (splitSeparators rest).later⟩ := by
  rw [splitSeparators.eq_def]
  split
  · rename_i hsome
    cases h.symm.trans hsome
    rfl
  · rename_i hnone
    cases h.symm.trans hnone

theorem splitSeparators_nil : splitSeparators [] = ⟨[], []⟩ := by
  rw [splitSeparators]
  rfl

theorem hasSeparator_eq_false (h : NoSeparator text []) : hasSeparator text = false := by
  induction text with
  | nil => rfl
  | cons c rest ih =>
    have hc := h [] c rest rfl
    rw [List.append_nil] at hc
    rw [hasSeparator, hc, ih fun before d more heq => h (c :: before) d more (by
      rw [heq, List.cons_append])]
    rfl

/-- A text with a separator has one, whatever stands in front of it. -/
theorem hasSeparator_append (h : (separator? text).isSome = true) (front : Text) :
    hasSeparator (front ++ text) = true := by
  induction front with
  | nil =>
    cases text with
    | nil => cases h
    | cons c rest => rw [List.nil_append, hasSeparator, h, Bool.true_or]
  | cons c front ih => rw [List.cons_append, hasSeparator, ih, Bool.or_true]

end Separators

/-! ### Solid texts -/

/-- No separator begins in the text, and the text begins with no joining word, whatever ends its
last word. -/
structure IsSolid (text : Text) : Prop where
  noSeparator : ∀ back, EndsWord back → NoSeparator text back
  startsJoin : ∀ back, EndsWord back → startsJoin (text ++ back) = false

/-- Where a word ends, no word of a join begins. -/
theorem startsJoin_of_endsWord {text : Text} (h : EndsWord text) : startsJoin text = false := by
  cases text with
  | nil => rfl
  | cons c rest =>
    have hc := h c rfl
    refine startsJoin_of_head (fun heq => ?_) (fun heq => ?_) rest <;>
    · rw [heq] at hc
      cases hc

namespace IsSolid

variable {text front letters : Text} {c : Char}

theorem nil : IsSolid [] where
  noSeparator _ _ := noSeparator_nil
  startsJoin _ h := startsJoin_of_endsWord h

/-- A word that does not join is solid. -/
theorem word (h : IsWord letters) (hand : letters ≠ "AND".toList) (hor : letters ≠ "OR".toList) :
    IsSolid letters where
  noSeparator _ _ := noSeparator_word h
  startsJoin back hback := by
    have hword := takeWhile_word h hback
    apply Bool.eq_false_iff.mpr
    intro hjoin
    simp only [SignalScript.startsJoin, Bool.or_eq_true, List.isPrefixOf_iff_prefix] at hjoin
    -- What joins would be the word itself.
    rcases hjoin with ⟨rest, hrest⟩ | ⟨rest, hrest⟩
    · rw [← hrest] at hword
      exact hand hword.symm
    · rw [← hrest] at hword
      exact hor hword.symm

/-- Spaces in front of a solid text. -/
theorem pad (h : IsSolid text) (gap : Nat) : IsSolid (spaces gap ++ text) where
  noSeparator back hback :=
    (noSeparator_spaces (h.startsJoin back hback) gap).append (h.noSeparator back hback)
  startsJoin back hback := by
    cases gap with
    | zero => exact h.startsJoin back hback
    | succ gap => rfl

/-- A sign in front of a solid text. -/
theorem cons (h : IsSolid text) (hspace : c ≠ ' ') (hand : c ≠ '&') (hor : c ≠ '|')
    (hname : isNameChar c = false) : IsSolid (c :: text) where
  noSeparator back hback :=
    .cons (separator?_of_ne hspace hand hor _) (h.noSeparator back hback)
  startsJoin _ _ := startsJoin_of_endsWord (endsWord_cons hname)

/-- Solid texts side by side, where no word runs on. -/
theorem append (hfront : IsSolid front) (htext : IsSolid text)
    (hends : ∀ back, EndsWord back → EndsWord (text ++ back)) : IsSolid (front ++ text) where
  noSeparator back hback :=
    (hfront.noSeparator _ (hends back hback)).append (htext.noSeparator back hback)
  startsJoin back hback := by
    rw [List.append_assoc]
    exact hfront.startsJoin _ (hends back hback)

/-- Spaces behind a solid text. -/
theorem append_spaces (h : IsSolid text) (gap : Nat) : IsSolid (text ++ spaces gap) := by
  have hspaces : IsSolid (spaces gap) := by simpa using nil.pad gap
  exact h.append hspaces fun back hback => hback.spaces gap

end IsSolid

end SignalScript
