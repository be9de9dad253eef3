import SignalScript.Proofs.Condition.Marks
import SignalScript.Proofs.Condition.Unreadable

/-!
# Blanks around a condition

Blanks around a text are trimmed away before it is split, and with a blank a separator may go: what
was ` AND ` is an `AND` at the end of the text. It is then a word on its own in a part of the text,
and no such word is read in silence. Where no part holds one, the blanks have held no separator.

## Main definitions

* `joinWords` — the words that join between blanks

## Main results

* `separatorCount_pad` — the blanks around a text hold no separator
* `exists_isLifting_trim` — nothing is lost when a text is trimmed before its compounds are lifted
-/

namespace SignalScript

open Text

/-- The words that join between blanks. -/
def joinWords : List Text := ["AND".toList, "OR".toList]

section Margins

variable {text front back : Text} {c : Char}

theorem isWord_of_mem_joinWords {word : Text} (h : word ∈ joinWords) : IsWord word := by
  have hall : ∀ word ∈ joinWords, IsWord word := by decide
  exact hall word h

/-- In front of a text that does not begin with such a word, blanks hold no separator. -/
theorem separatorCount_append_left (hfront : ∀ c ∈ front, isBlank c = true)
    (h : startsJoin text = false) : separatorCount (front ++ text) = separatorCount text := by
  rw [separatorCount, splitSeparators_append (noSeparator_blanks h hfront)]
  rfl

/-- The first part is empty, or begins with the first character of the text. -/
theorem first_splitSeparators_cons (c : Char) (text : Text) :
    (splitSeparators (c :: text)).first = [] ∨
      ∃ rest, (splitSeparators (c :: text)).first = c :: rest := by
  cases h : separator? (c :: text) with
  | none => exact Or.inr ⟨_, by rw [splitSeparators_cons h]⟩
  | some found =>
    obtain ⟨join, rest⟩ := found
    exact Or.inl (by rw [splitSeparators_separator h])

/-- A text that begins with such a word, given the blanks behind it, has the word on its own in its
first part. -/
theorem exists_standsIn_first (hback : ∀ c ∈ back, isBlank c = true)
    (h : startsJoin (text ++ back) = true) :
    ∃ word ∈ joinWords, StandsIn word (splitSeparators text).first := by
  obtain ⟨word, hword, rest, hrest⟩ :
      ∃ word ∈ joinWords, ∃ rest, text ++ back = word ++ ' ' :: rest := by
    simp only [startsJoin, Bool.or_eq_true, List.isPrefixOf_iff_prefix] at h
    rcases h with ⟨rest, hrest⟩ | ⟨rest, hrest⟩
    · exact ⟨"AND".toList, by simp [joinWords], rest, hrest.symm⟩
    · exact ⟨"OR".toList, by simp [joinWords], rest, hrest.symm⟩
  have hisWord := isWord_of_mem_joinWords hword
  -- The blanks behind the text hold nothing of the word.
  obtain ⟨behind, rfl, hbehind⟩ :
      ∃ behind, text = word ++ behind ∧ ∀ c ∈ behind.head?, c = ' ' := by
    rcases List.append_eq_append_iff.mp hrest with ⟨more, rfl, hmore⟩ | ⟨behind, rfl, hbehind⟩
    · cases more with
      | nil => exact ⟨[], by simp, by simp⟩
      | cons d more =>
        have hname := hisWord.isNameChar (List.mem_append_right text List.mem_cons_self)
        have hblank := hback d (hmore ▸ List.mem_cons_self)
        rw [isBlank_of_isNameChar hname] at hblank
        cases hblank
    · refine ⟨behind, rfl, fun c hc => ?_⟩
      obtain ⟨more, rfl⟩ := List.head?_eq_some_iff.mp hc
      exact (List.cons.inj hbehind).1.symm
  refine ⟨word, hword, [], (splitSeparators behind).first, ?_, by simp, fun c hc => ?_⟩
  · rw [splitSeparators_append (noSeparator_word hisWord)]
    rfl
  · cases behind with
    | nil =>
      rw [splitSeparators_nil] at hc
      cases hc
    | cons d behind =>
      obtain rfl := hbehind d rfl
      rcases first_splitSeparators_cons ' ' behind with hnone | ⟨rest, hsome⟩
      · rw [hnone] at hc
        cases hc
      · rw [hsome] at hc
        obtain rfl := Option.some.inj hc
        rfl

/-- A separator that ends in the blanks behind a text has its word at the end of the text. -/
theorem exists_joinWord_of_separator? (hback : ∀ c ∈ back, isBlank c = true)
    (hnone : separator? text = none) (htext : text ≠ [])
    (hsome : (separator? (text ++ back)).isSome = true) :
    ∃ word ∈ joinWords, text = ' ' :: word := by
  obtain ⟨⟨join, rest⟩, hsome⟩ := Option.isSome_iff_exists.mp hsome
  obtain ⟨sign, hsign, heq⟩ := separator?_eq_some_iff.mp hsome
  rcases List.append_eq_append_iff.mp heq with ⟨tail, rfl, rfl⟩ | ⟨tail, rfl, -⟩
  · have hall : ∀ pair ∈ separators, ∀ n < pair.2.length, 0 < n →
        (pair.2.drop n).all isBlank = true →
          ∃ word ∈ joinWords, pair.2.take n = ' ' :: word := by decide
    -- Something of the separator is behind the text, as the text has none of its own.
    have htail : tail ≠ [] := by
      rintro rfl
      rw [List.append_nil] at hsign
      rw [separator?_eq_some_iff.mpr ⟨text, hsign, (List.append_nil _).symm⟩] at hnone
      cases hnone
    have hword := hall _ hsign text.length
      (by simpa using List.length_pos_iff.mpr htail) (List.length_pos_iff.mpr htext)
    rw [List.drop_left, List.take_left] at hword
    exact hword (List.all_eq_true.mpr fun c hc => hback c (List.mem_append_left _ hc))
  · rw [separator?_eq_some_iff.mpr ⟨sign, hsign, rfl⟩] at hnone
    cases hnone

theorem texts_space_joinWord {word : Text} (h : word ∈ joinWords) :
    (splitSeparators (' ' :: word)).texts = [' ' :: word] := by
  have hspace : NoSeparator (' ' :: word) [] := by
    refine NoSeparator.cons ?_ (noSeparator_word (isWord_of_mem_joinWords h))
    have hall : ∀ word ∈ joinWords, separator? (' ' :: (word ++ [])) = none := by decide
    exact hall word h
  have hsplit := splitSeparators_append hspace
  rw [List.append_nil, splitSeparators_nil, List.append_nil] at hsplit
  rw [hsplit]
  rfl

/-- Where no part of a text ends with such a word, the blanks behind the text hold no separator. -/
theorem separatorCount_append_right (hback : ∀ c ∈ back, isBlank c = true)
    (hparts : ∀ part ∈ (splitSeparators text).texts, ∀ word ∈ joinWords, ¬ ' ' :: word <:+ part) :
    separatorCount (text ++ back) = separatorCount text := by
  fun_induction splitSeparators text with
  | case1 text join rest h parts ih =>
    rw [separatorCount_of_separator (separator?_append h back), separatorCount_of_separator h,
      ih fun part hpart => hparts part (List.mem_cons_of_mem _ hpart)]
  | case2 =>
    have hnone : startsJoin [] = false := rfl
    simpa using separatorCount_append_left hback hnone
  | case3 c rest h parts ih =>
    cases hsome : separator? (c :: (rest ++ back)) with
    | none =>
      rw [List.cons_append, separatorCount_cons hsome, separatorCount_cons h]
      refine ih (List.forall_mem_cons.mpr ⟨fun word hword hsuffix => ?_, fun part hpart =>
        hparts part (List.mem_cons_of_mem _ hpart)⟩)
      exact hparts _ List.mem_cons_self word hword (hsuffix.trans (List.suffix_cons c _))
    | some found =>
      -- A separator that begins here ends in the blanks, so all of the text is its word.
      obtain ⟨word, hword, hrest⟩ := exists_joinWord_of_separator? hback h (List.cons_ne_nil _ _)
        (by rw [List.cons_append, hsome]; rfl)
      have htexts : (c :: parts.first) :: parts.later.map Prod.snd = [' ' :: word] := by
        have hsplit := congrArg Parts.texts (splitSeparators_cons h)
        rw [hrest, texts_space_joinWord hword] at hsplit
        exact hsplit.symm
      refine absurd (List.suffix_refl _) (hparts _ ?_ word hword)
      change _ ∈ (c :: parts.first) :: parts.later.map Prod.snd
      rw [htexts]
      exact List.mem_singleton_self _

/-- Where no part of a text holds such a word on its own, the blanks around the text hold no
separator. -/
theorem separatorCount_pad (hfront : ∀ c ∈ front, isBlank c = true)
    (hback : ∀ c ∈ back, isBlank c = true)
    (hparts : ∀ part ∈ (splitSeparators text).texts, ∀ word ∈ joinWords, ¬ StandsIn word part) :
    separatorCount (front ++ (text ++ back)) = separatorCount text := by
  have hstart : startsJoin (text ++ back) = false := by
    by_contra hjoin
    obtain ⟨word, hword, hstands⟩ :=
      exists_standsIn_first hback (Bool.not_eq_false _ ▸ hjoin)
    exact hparts _ List.mem_cons_self word hword hstands
  rw [separatorCount_append_left hfront hstart, separatorCount_append_right hback]
  rintro _ hpart word hword ⟨before, rfl⟩
  have hspace : ∀ c ∈ (before ++ [' ']).getLast?, isBlank c = true := fun c hc => by
    obtain rfl : ' ' = c := by simpa using hc
    rfl
  exact hparts _ hpart word hword ⟨before ++ [' '], [], by simp, hspace, by simp⟩

/-- What is lifted out of the trimmed text is what the text itself holds. -/
theorem exists_isLifting_trim (text : Text)
    (hparts : ∀ part ∈ (splitSeparators (liftCompounds (trim text)).text).texts,
      ∀ word ∈ joinWords, ¬ StandsIn word part) :
    ∃ inners, IsLifting text (liftCompounds (trim text)) inners := by
  obtain ⟨front, back, hfront, hback, htext⟩ := exists_pad text
  -- The blanks that are trimmed away would stay where they are.
  have hpad : liftCompoundsFrom 0 text = ⟨front ++ ((liftCompounds (trim text)).text ++ back),
      (liftCompounds (trim text)).compounds⟩ := by
    have hlift := liftCompoundsFrom_append (not_mem_of_blank hfront rfl)
      (not_mem_of_blank hback rfl) (not_mem_of_blank hback rfl) 0 (trim text)
    rwa [← htext] at hlift
  obtain ⟨inners, h⟩ := exists_isLifting 0 text
  rw [hpad] at h
  refine ⟨inners, { h with separatorCount_eq := ?_ }⟩
  have hcount := h.separatorCount_eq
  rwa [separatorCount_pad hfront hback hparts] at hcount

end Margins

end SignalScript
