import SignalScript.Proofs.Condition.Compounds

/-!
# The marks of lifted compounds

A compound leaves a mark in the text, and the part of the text that consists of the mark is read as
the compound. The text itself may hold what looks like a mark. If it has no square brackets, every
mark is one that a compound has left; and if no part with a square bracket is read as a test, the
parts stand for the compounds one by one, in order.

## Main definitions

* `Parts.texts` — the parts of a text without the joins between them
* `partNumber?` — the number of the compound that a part stands for

## Main results

* `exists_texts_append_cons` — the parts around a character that belongs to no separator
* `filterMap_partNumber?` — the parts stand for the compounds in order
-/

namespace SignalScript

open Text

/-- The parts of a text without the joins between them. -/
def Parts.texts (parts : Parts) : List Text := parts.first :: parts.later.map Prod.snd

/-- The number of the compound that a part stands for, behind an optional negation. -/
def partNumber? (part : Text) : Option Nat := compoundNumber? (negation (trim part)).2

/-! ### Parts -/

section Parts

variable {text front back part : Text} {c : Char}

/-- The parts are those on both sides of a character that belongs to no separator, where the two
next to the character are one. -/
theorem exists_texts_append_cons (hc : isSeparatorChar c = false) (front back : Text) :
    ∃ init last, (splitSeparators front).texts = init ++ [last] ∧
      (splitSeparators (front ++ c :: back)).texts =
        init ++ (last ++ c :: (splitSeparators back).first) ::
          (splitSeparators back).later.map Prod.snd := by
  fun_induction splitSeparators front with
  | case1 front join rest h parts ih =>
    obtain ⟨init, last, hfront, htexts⟩ := ih
    refine ⟨[] :: init, last, congrArg ([] :: ·) hfront, ?_⟩
    rw [splitSeparators_separator (separator?_append h (c :: back))]
    exact congrArg ([] :: ·) htexts
  | case2 h =>
    have hstart := separator?_append_cons hc h back
    rw [List.nil_append] at hstart ⊢
    exact ⟨[], [], rfl, by rw [splitSeparators_cons hstart]; rfl⟩
  | case3 d rest h parts ih =>
    obtain ⟨init, last, hfront, htexts⟩ := ih
    have hstart := separator?_append_cons hc h back
    rw [List.cons_append] at hstart ⊢
    rw [splitSeparators_cons hstart]
    -- The character in front belongs to the first part, which may be the last.
    cases init with
    | nil =>
      obtain ⟨hfirst, hlater⟩ := List.cons.inj hfront
      obtain ⟨hfirst', hlater'⟩ := List.cons.inj htexts
      refine ⟨[], d :: last, ?_, ?_⟩
      · exact congrArg₂ (fun part parts => (d :: part) :: parts) hfirst hlater
      · exact congrArg₂ (fun part parts => (d :: part) :: parts) hfirst' hlater'
    | cons part init =>
      obtain ⟨hfirst, hlater⟩ := List.cons.inj hfront
      obtain ⟨hfirst', hlater'⟩ := List.cons.inj htexts
      refine ⟨(d :: part) :: init, last, ?_, ?_⟩
      · exact congrArg₂ (fun part parts => (d :: part) :: parts) hfirst hlater
      · exact congrArg₂ (fun part parts => (d :: part) :: parts) hfirst' hlater'

/-- A text without characters of separators has no separator, whatever stands behind it. -/
theorem noSeparator_of_forall (h : ∀ c ∈ text, isSeparatorChar c = false) (back : Text) :
    NoSeparator text back := by
  rintro front c rest rfl
  have hc := h c (List.mem_append_right _ List.mem_cons_self)
  refine separator?_of_ne ?_ ?_ ?_ _ <;>
  · rintro rfl
    cases hc

/-- A mark belongs to one part, with what stands around it. -/
theorem exists_texts_compoundMark (front : Text) (number : Nat) (back : Text) :
    ∃ init last, (splitSeparators front).texts = init ++ [last] ∧
      (splitSeparators (front ++ (compoundMark number ++ back))).texts =
        init ++ (last ++ (compoundMark number ++ (splitSeparators back).first)) ::
          (splitSeparators back).later.map Prod.snd := by
  have hmark : ∀ c ∈ Decimal.writeNat number ++ [']'], isSeparatorChar c = false := fun c hc =>
    isSeparatorChar_of_mem_compoundMark c (List.mem_cons_of_mem _ hc)
  obtain ⟨init, last, hfront, htexts⟩ := exists_texts_append_cons (c := '[') rfl front
    ((Decimal.writeNat number ++ [']']) ++ back)
  refine ⟨init, last, hfront, htexts.trans ?_⟩
  rw [splitSeparators_append (noSeparator_of_forall hmark back)]
  rfl

/-- A part is part of the text it was split from. -/
theorem sublist_of_mem_texts (h : part ∈ (splitSeparators text).texts) : part.Sublist text := by
  obtain ⟨hfirst, hlater⟩ := sublist_splitSeparators text
  rcases List.mem_cons.mp h with rfl | h
  · exact hfirst
  · obtain ⟨pair, hpair, rfl⟩ := List.mem_map.mp h
    exact hlater pair hpair

end Parts

/-! ### Numbers -/

section Numbers

variable {text part front back : Text} {number other : Nat}

theorem Decimal.isDigit_of_readDigits? {total : Nat} (h : readDigits? total text = some number) :
    ∀ c ∈ text, c.isDigit = true := by
  induction text generalizing total with
  | nil => simp
  | cons c rest ih =>
    obtain ⟨digit, hdigit, hrest⟩ := Option.bind_eq_some_iff.mp h
    exact List.forall_mem_cons.mpr ⟨isDigit_of_digit? hdigit, ih hrest⟩

theorem Decimal.isDigit_of_readNat? (h : readNat? text = some number) :
    ∀ c ∈ text, c.isDigit = true ∨ c = '+' := by
  rw [readNat?.eq_def] at h
  split at h
  · cases h
  · cases h
  · exact List.forall_mem_cons.mpr ⟨Or.inr rfl, fun c hc => Or.inl (isDigit_of_readDigits? h c hc)⟩
  · exact fun c hc => Or.inl (isDigit_of_readDigits? h c hc)

/-- A text stands for a compound if it is a number in square brackets. -/
theorem exists_of_compoundNumber? (h : compoundNumber? text = some number) :
    ∃ digits, text = '[' :: (digits ++ [']']) ∧ Decimal.readNat? digits = some number := by
  rw [compoundNumber?.eq_def] at h
  split at h
  · split at h
    · rename_i rest digits hreverse
      have hrest := congrArg List.reverse hreverse
      rw [List.reverse_reverse, List.reverse_cons] at hrest
      exact ⟨digits.reverse, congrArg ('[' :: ·) hrest, h⟩
    · cases h
  · cases h

/-- A negation is what it leaves, behind a sign or a word. -/
theorem exists_append_negation (text : Text) : ∃ sign : Text,
    (∀ c ∈ sign, isBlank c = true ∨ c ∈ "!NOT".toList) ∧ text = sign ++ (negation text).2 := by
  have hstart (word rest : Text)
      (hword : word.all (fun c => isBlank c || "!NOT".toList.contains c) = true) :
      ∃ sign : Text, (∀ c ∈ sign, isBlank c = true ∨ c ∈ "!NOT".toList) ∧
        word ++ rest = sign ++ trimStart rest := by
    obtain ⟨blanks, hblanks, hrest⟩ := exists_append_trimStart rest
    refine ⟨word ++ blanks, List.forall_mem_append.mpr ⟨fun c hc => ?_,
      fun c hc => Or.inl (hblanks c hc)⟩, by rw [List.append_assoc, ← hrest]⟩
    simpa only [Bool.or_eq_true, List.contains_iff_mem] using List.all_eq_true.mp hword c hc
  rw [negation.eq_def]
  split
  · exact hstart ['!'] _ rfl
  · exact hstart "NOT ".toList _ rfl
  · exact ⟨[], by simp, rfl⟩

/-- A part with a number holds one pair of square brackets, and no round ones. -/
theorem exists_of_partNumber? (h : partNumber? part = some number) :
    ∃ front digits back, part = front ++ '[' :: (digits ++ ']' :: back) ∧
      Decimal.readNat? digits = some number ∧
      (∀ c ∈ front, isBlank c = true ∨ c ∈ "!NOT".toList) ∧ ∀ c ∈ back, isBlank c = true := by
  obtain ⟨digits, hrest, hdigits⟩ := exists_of_compoundNumber? h
  obtain ⟨front, back, hfront, hback, hpart⟩ := exists_pad part
  obtain ⟨sign, hsign, htrim⟩ := exists_append_negation (trim part)
  refine ⟨front ++ sign, digits, back, ?_, hdigits,
    List.forall_mem_append.mpr ⟨fun c hc => Or.inl (hfront c hc), hsign⟩, hback⟩
  rw [htrim, hrest] at hpart
  simpa using hpart

theorem openSquare_mem_of_partNumber? (h : partNumber? part = some number) : '[' ∈ part := by
  obtain ⟨front, digits, back, rfl, -⟩ := exists_of_partNumber? h
  exact List.mem_append_right _ List.mem_cons_self

/-- A part without an opening square bracket stands for no compound. -/
theorem partNumber?_eq_none (h : '[' ∉ part) : partNumber? part = none := by
  by_contra hne
  obtain ⟨number, hnumber⟩ := Option.ne_none_iff_exists'.mp hne
  exact h (openSquare_mem_of_partNumber? hnumber)

/-- The characters of a numbered part. -/
def isNumberedChar (c : Char) : Bool := isBlank c || c.isDigit || "!NOT[]+".toList.contains c

/-- A part that stands for a compound holds its mark, a negation and blanks, and nothing else. -/
theorem isNumberedChar_of_partNumber? (h : partNumber? part = some number) {c : Char}
    (hc : c ∈ part) : isNumberedChar c = true := by
  obtain ⟨front, digits, back, rfl, hdigits, hfront, hback⟩ := exists_of_partNumber? h
  have hsigns : ∀ c ∈ "!NOT".toList, isNumberedChar c = true := List.all_eq_true.mp rfl
  simp only [List.mem_append, List.mem_cons] at hc
  rcases hc with hc | rfl | hc | rfl | hc
  · rcases hfront c hc with hblank | hsign
    · simp [isNumberedChar, hblank]
    · exact hsigns c hsign
  · rfl
  · rcases Decimal.isDigit_of_readNat? hdigits c hc with hdigit | rfl
    · simp [isNumberedChar, hdigit]
    · rfl
  · rfl
  · simp [isNumberedChar, hback c hc]

theorem closeSquare_not_mem {digits : Text} (h : ∀ c ∈ digits, c.isDigit = true ∨ c = '+') :
    ']' ∉ digits :=
  fun hmem => absurd (h _ hmem) (by decide)

/-- A part with a mark stands for the compound that has left it, and holds no other mark. -/
theorem eq_of_partNumber?_compoundMark
    (h : partNumber? (front ++ (compoundMark number ++ back)) = some other) (hfront : '[' ∉ front) :
    other = number ∧ '[' ∉ back := by
  obtain ⟨front', digits, back', heq, hdigits, hfront', hback'⟩ := exists_of_partNumber? h
  have hmark : front ++ (compoundMark number ++ back) =
      front ++ '[' :: (Decimal.writeNat number ++ ']' :: back) := by simp [compoundMark]
  have hfree : '[' ∉ front' := fun hmem => absurd (hfront' _ hmem) (by decide)
  -- Both square brackets stand where the text is first cut at them.
  have hopen := congrArg (cut? '[') (hmark.symm.trans heq)
  rw [cut?_append_cons hfront, cut?_append_cons hfree] at hopen
  have hclose := congrArg (cut? ']') (Prod.mk.inj (Option.some.inj hopen)).2
  have hwritten : ']' ∉ Decimal.writeNat number :=
    closeSquare_not_mem fun c hc => Or.inl (Decimal.isDigit_of_mem_writeNat hc)
  rw [cut?_append_cons hwritten,
    cut?_append_cons (closeSquare_not_mem (Decimal.isDigit_of_readNat? hdigits))] at hclose
  obtain ⟨rfl, rfl⟩ := Prod.mk.inj (Option.some.inj hclose)
  rw [Decimal.readNat?_writeNat] at hdigits
  exact ⟨(Option.some.inj hdigits).symm, fun hmem => absurd (hback' _ hmem) (by decide)⟩

/-- Parts of a text without square brackets stand for no compounds. -/
theorem filterMap_partNumber?_eq_nil {parts : List Text} (hopen : '[' ∉ text)
    (hparts : ∀ part ∈ parts, part ∈ (splitSeparators text).texts) :
    parts.filterMap partNumber? = [] :=
  List.filterMap_eq_nil_iff.mpr fun part hpart => partNumber?_eq_none fun hmem =>
    hopen ((sublist_of_mem_texts (hparts part hpart)).subset hmem)

/-- If every part with a square bracket stands for a compound, the parts stand for the compounds one
by one, in order. -/
theorem filterMap_partNumber? (number : Nat) (text : Text) (hopen : '[' ∉ text)
    (hparts : ∀ part ∈ (splitSeparators (liftCompoundsFrom number text).text).texts,
      '[' ∈ part → (partNumber? part).isSome = true) :
    (splitSeparators (liftCompoundsFrom number text).text).texts.filterMap partNumber? =
      List.range' number (liftCompoundsFrom number text).compounds.length := by
  fun_induction liftCompoundsFrom number text with
  | case1 => exact filterMap_partNumber?_eq_nil hopen fun _ => id
  | case2 => exact filterMap_partNumber?_eq_nil hopen fun _ => id
  | case3 number text before behind hcut inner after hclose pair hseparator lifted ih =>
    rw [cut?_eq_some hcut, closing?_eq_some hclose] at hopen
    simp only [List.mem_append, List.mem_cons, not_or] at hopen
    obtain ⟨hbefore, -, -, -, hafter⟩ := hopen
    obtain ⟨init, last, hinit, htexts⟩ := exists_texts_compoundMark before number lifted.text
    rw [List.append_assoc, htexts] at hparts ⊢
    have hfront {part : Text} (hpart : part ∈ init ++ [last]) :
        part ∈ (splitSeparators before).texts := hinit ▸ hpart
    have hlast : '[' ∉ last := fun hmem =>
      hbefore ((sublist_of_mem_texts (hfront (by simp))).subset hmem)
    -- The part with the mark stands for the compound, so no other mark is next to it.
    obtain ⟨found, hfound⟩ := Option.isSome_iff_exists.mp
      (hparts _ (List.mem_append_right _ List.mem_cons_self) (by simp [compoundMark]))
    obtain ⟨rfl, hfirst⟩ := eq_of_partNumber?_compoundMark hfound hlast
    have hlater := ih hafter (List.forall_mem_cons.mpr ⟨fun hmem => absurd hmem hfirst,
      fun part hpart =>
        hparts part (List.mem_append_right _ (List.mem_cons_of_mem _ hpart))⟩)
    rw [Parts.texts, List.filterMap_cons_none (partNumber?_eq_none hfirst)] at hlater
    rw [List.filterMap_append, filterMap_partNumber?_eq_nil hbefore fun part hpart =>
      hfront (List.mem_append_left _ hpart), List.filterMap_cons_some hfound, hlater]
    rfl
  | case4 number text before behind hcut inner after hclose pair hseparator lifted ih =>
    rw [cut?_eq_some hcut, closing?_eq_some hclose] at hopen
    simp only [List.mem_append, List.mem_cons, not_or] at hopen
    obtain ⟨hbefore, -, hinner, -, hafter⟩ := hopen
    have hplain : '[' ∉ before ++ '(' :: inner := by simp [hbefore, hinner]
    obtain ⟨init, last, hinit, htexts⟩ :=
      exists_texts_append_cons (c := ')') rfl (before ++ '(' :: inner) lifted.text
    have hpair : before ++ pair ++ lifted.text =
        (before ++ '(' :: inner) ++ ')' :: lifted.text := by simp [pair]
    rw [hpair, htexts] at hparts ⊢
    -- The part with the bracket stands for no compound, so no mark is next to it.
    have hnone : partNumber? (last ++ ')' :: (splitSeparators lifted.text).first) = none := by
      by_contra hne
      obtain ⟨found, hfound⟩ := Option.ne_none_iff_exists'.mp hne
      exact absurd (isNumberedChar_of_partNumber? hfound (c := ')') (by simp)) (by decide)
    have hfirst : '[' ∉ (splitSeparators lifted.text).first := fun hmem => by
      have hsome := hparts _ (List.mem_append_right _ List.mem_cons_self)
        (List.mem_append_right _ (List.mem_cons_of_mem _ hmem))
      rw [hnone] at hsome
      cases hsome
    have hlater := ih hafter (List.forall_mem_cons.mpr ⟨fun hmem => absurd hmem hfirst,
      fun part hpart =>
        hparts part (List.mem_append_right _ (List.mem_cons_of_mem _ hpart))⟩)
    rw [Parts.texts, List.filterMap_cons_none (partNumber?_eq_none hfirst)] at hlater
    rw [List.filterMap_append, filterMap_partNumber?_eq_nil hplain fun part hpart => by
      rw [hinit]
      exact List.mem_append_left _ hpart, List.filterMap_cons_none hnone, hlater]
    rfl

end Numbers

end SignalScript
