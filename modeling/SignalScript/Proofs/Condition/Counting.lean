import SignalScript.Proofs.Condition.Lifting
import SignalScript.Proofs.Condition.Separator

/-!
# The number of separators

A text is split at its separators, so it has one part more than separators. A bracket belongs to no
separator and ends none, so the separators around a bracket are those in front of it and those
behind it. Lifting compounds therefore takes from a text the separators that the compounds hold, and
no others.

## Main definitions

* `separatorCount` — the number of separators of a text
* `isSeparatorChar` — characters of separators

## Main results

* `separatorCount_append_cons` — the separators around a character that belongs to none
* `separatorCount_liftCompoundsFrom_le` — lifting adds no separators
-/

namespace SignalScript

open Text

/-- The number of separators of a text. -/
def separatorCount (text : Text) : Nat := (splitSeparators text).later.length

/-- The separators, with the joins that they stand for. -/
def separators : List (Join × Text) :=
  [(.and, "&&".toList), (.or, "||".toList), (.and, " AND ".toList), (.or, " OR ".toList)]

/-- The character occurs in a separator. -/
def isSeparatorChar (c : Char) : Bool := c ∈ separators.flatMap Prod.snd

section Separators

variable {text rest front back before behind : Text} {join : Join} {c : Char}

/-- A text begins with a separator if it begins with one of the four spellings. -/
theorem separator?_eq_some_iff : separator? text = some (join, rest) ↔
    ∃ sign, (join, sign) ∈ separators ∧ text = sign ++ rest := by
  constructor
  · intro h
    rw [separator?.eq_def] at h
    split at h <;> cases h
    · exact ⟨"&&".toList, by simp [separators], rfl⟩
    · exact ⟨"||".toList, by simp [separators], rfl⟩
    · exact ⟨" AND ".toList, by simp [separators], rfl⟩
    · exact ⟨" OR ".toList, by simp [separators], rfl⟩
  · rintro ⟨sign, hsign, rfl⟩
    simp only [separators, List.mem_cons, Prod.mk.injEq, List.not_mem_nil, or_false] at hsign
    rcases hsign with ⟨rfl, rfl⟩ | ⟨rfl, rfl⟩ | ⟨rfl, rfl⟩ | ⟨rfl, rfl⟩ <;> rfl

theorem isSeparatorChar_of_mem {sign : Text} (h : (join, sign) ∈ separators) (hc : c ∈ sign) :
    isSeparatorChar c = true :=
  decide_eq_true (List.mem_flatMap.mpr ⟨_, h, hc⟩)

/-- A separator is the same whatever stands behind it. -/
theorem separator?_append (h : separator? text = some (join, rest)) (back : Text) :
    separator? (text ++ back) = some (join, rest ++ back) := by
  obtain ⟨sign, hsign, rfl⟩ := separator?_eq_some_iff.mp h
  exact separator?_eq_some_iff.mpr ⟨sign, hsign, List.append_assoc _ _ _⟩

/-- No separator goes on over a character that belongs to none. -/
theorem separator?_append_cons (hc : isSeparatorChar c = false) (h : separator? text = none)
    (back : Text) : separator? (text ++ c :: back) = none := by
  by_contra hne
  obtain ⟨⟨join, rest⟩, hsome⟩ := Option.ne_none_iff_exists'.mp hne
  obtain ⟨sign, hsign, heq⟩ := separator?_eq_some_iff.mp hsome
  rcases List.append_eq_append_iff.mp heq with ⟨middle, hfront, hback⟩ | ⟨middle, hfront, hback⟩
  · cases middle with
    | nil =>
      rw [List.append_nil] at hfront
      rw [separator?_eq_some_iff.mpr ⟨sign, hsign, by rw [hfront, List.append_nil]⟩] at h
      cases h
    | cons d middle =>
      obtain rfl := (List.cons.inj hback).1
      rw [isSeparatorChar_of_mem hsign (by simp [hfront])] at hc
      cases hc
  · rw [separator?_eq_some_iff.mpr ⟨sign, hsign, hfront⟩] at h
    cases h

/-- The parts of a text are parts of it. -/
theorem sublist_splitSeparators (text : Text) : (splitSeparators text).first.Sublist text ∧
    ∀ part ∈ (splitSeparators text).later, part.2.Sublist text := by
  fun_induction splitSeparators text with
  | case1 text join rest h parts ih =>
    obtain ⟨sign, -, rfl⟩ := separator?_eq_some_iff.mp h
    have hrest : rest.Sublist (sign ++ rest) := List.sublist_append_right _ _
    exact ⟨List.nil_sublist _, List.forall_mem_cons.mpr
      ⟨ih.1.trans hrest, fun part hpart => (ih.2 part hpart).trans hrest⟩⟩
  | case2 => exact ⟨List.Sublist.refl _, List.forall_mem_nil _⟩
  | case3 c rest h parts ih =>
    exact ⟨ih.1.cons_cons c, fun part hpart => (ih.2 part hpart).cons c⟩

/-- A separator is counted once, and counting goes on behind it. -/
theorem separatorCount_of_separator (h : separator? text = some (join, rest)) :
    separatorCount text = separatorCount rest + 1 := by
  rw [separatorCount, splitSeparators_separator h]
  rfl

/-- A character that begins no separator goes to the first part. -/
theorem splitSeparators_cons (h : separator? (c :: text) = none) : splitSeparators (c :: text) =
    { splitSeparators text with first := c :: (splitSeparators text).first } := by
  rw [splitSeparators.eq_def]
  split
  · rename_i hsome
    cases h.symm.trans hsome
  · rfl

theorem separatorCount_cons (h : separator? (c :: text) = none) :
    separatorCount (c :: text) = separatorCount text := by
  rw [separatorCount, splitSeparators_cons h]
  rfl

@[simp] theorem separatorCount_nil : separatorCount [] = 0 := by
  rw [separatorCount, splitSeparators_nil]
  rfl

/-- The separators around a character that belongs to none are those in front of it and those
behind it. -/
theorem separatorCount_append_cons (hc : isSeparatorChar c = false) (front back : Text) :
    separatorCount (front ++ c :: back) = separatorCount front + separatorCount back := by
  fun_induction splitSeparators front with
  | case1 front join rest h parts ih =>
    rw [separatorCount_of_separator (separator?_append h (c :: back)),
      separatorCount_of_separator h, ih]
    omega
  | case2 h =>
    have hstart := separator?_append_cons hc h back
    rw [List.nil_append] at hstart ⊢
    rw [separatorCount_cons hstart, separatorCount_nil, Nat.zero_add]
  | case3 d rest h parts ih =>
    have hstart := separator?_append_cons hc h back
    rw [List.cons_append] at hstart ⊢
    rw [separatorCount_cons hstart, separatorCount_cons h, ih]

/-- A text whose characters belong to no separator has none of its own and ends none. -/
theorem separatorCount_append_of_forall {middle : Text} (hne : middle ≠ [])
    (h : ∀ c ∈ middle, isSeparatorChar c = false) (front back : Text) :
    separatorCount (front ++ (middle ++ back)) = separatorCount front + separatorCount back := by
  induction middle generalizing front with
  | nil => exact absurd rfl hne
  | cons c middle ih =>
    obtain ⟨hc, hmiddle⟩ := List.forall_mem_cons.mp h
    rw [List.cons_append, separatorCount_append_cons hc]
    cases middle with
    | nil => rfl
    | cons d middle =>
      have hrest := ih (List.cons_ne_nil _ _) hmiddle []
      rw [List.nil_append, separatorCount_nil, Nat.zero_add] at hrest
      rw [hrest]

/-- There are no more separators than characters. -/
theorem separatorCount_le_length (text : Text) : separatorCount text ≤ text.length := by
  fun_induction splitSeparators text with
  | case1 text join rest h parts ih =>
    have := length_of_separator? h
    rw [separatorCount_of_separator h]
    omega
  | case2 => rw [separatorCount_nil]; exact Nat.le_refl 0
  | case3 c rest h parts ih =>
    rw [separatorCount_cons h, List.length_cons]
    omega

/-- No separator is spelled with digits. -/
theorem isSeparatorChar_of_isDigit (h : c.isDigit = true) : isSeparatorChar c = false := by
  refine decide_eq_false fun hc => ?_
  have hdigit := List.all_eq_true.mp
    (show (separators.flatMap Prod.snd).all (fun d => !d.isDigit) = true from rfl) c hc
  rw [h] at hdigit
  cases hdigit

theorem isSeparatorChar_of_mem_compoundMark {number : Nat} :
    ∀ c ∈ compoundMark number, isSeparatorChar c = false := by
  intro c h
  rw [compoundMark, List.cons_append, List.mem_cons, List.mem_append, List.mem_singleton] at h
  rcases h with rfl | h | rfl
  · rfl
  · exact isSeparatorChar_of_isDigit (Decimal.isDigit_of_mem_writeNat h)
  · rfl

/-- A mark stands between the separators around it. -/
theorem separatorCount_compoundMark (front : Text) (number : Nat) (back : Text) :
    separatorCount (front ++ (compoundMark number ++ back)) =
      separatorCount front + separatorCount back :=
  separatorCount_append_of_forall (List.cons_ne_nil _ _) isSeparatorChar_of_mem_compoundMark _ _

/-- Brackets stand between the separators in front of them, in them and behind them. -/
theorem separatorCount_brackets (front inner back : Text) :
    separatorCount (front ++ '(' :: (inner ++ ')' :: back)) =
      separatorCount front + (separatorCount inner + separatorCount back) := by
  rw [separatorCount_append_cons rfl, separatorCount_append_cons rfl]

/-- Lifting adds no separators. -/
theorem separatorCount_liftCompoundsFrom_le (number : Nat) (text : Text) :
    separatorCount (liftCompoundsFrom number text).text ≤ separatorCount text := by
  fun_induction liftCompoundsFrom number text with
  | case1 => exact Nat.le_refl _
  | case2 => exact Nat.le_refl _
  | case3 number text before behind hcut inner after hclose pair hseparator lifted ih =>
    have hlater : separatorCount lifted.text ≤ separatorCount after := ih
    rw [Text.cut?_eq_some hcut, Text.closing?_eq_some hclose, separatorCount_brackets,
      List.append_assoc, separatorCount_compoundMark]
    omega
  | case4 number text before behind hcut inner after hclose pair hseparator lifted ih =>
    have hlater : separatorCount lifted.text ≤ separatorCount after := ih
    have hlifted : before ++ pair ++ lifted.text =
        before ++ '(' :: (inner ++ ')' :: lifted.text) := by simp [pair]
    rw [Text.cut?_eq_some hcut, Text.closing?_eq_some hclose, hlifted, separatorCount_brackets,
      separatorCount_brackets]
    omega

end Separators

end SignalScript
