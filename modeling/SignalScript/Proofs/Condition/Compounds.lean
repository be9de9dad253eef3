import Mathlib.Algebra.Order.BigOperators.Group.List
import Mathlib.Algebra.Order.Ring.Nat
import SignalScript.Proofs.Condition.Counting
import SignalScript.Proofs.Condition.Lifting

/-!
# The compounds of a text

A compound is a pair of brackets with a separator between them, at any depth. Lifting takes the
outermost ones out of a text, and each of them is a text with compounds of its own. So the compounds
of a text, and its separators, are those that are left after the lifting and those inside what was
lifted.

## Main definitions

* `compoundCount` — the number of compounds, over all depths
* `IsLifting` — what lifting preserves of a text

## Main results

* `exists_isLifting` — lifting loses no separator and no compound
* `liftCompoundsFrom_append` — text without brackets at the ends stays where it is
-/

namespace SignalScript

open Text

/-- The text begins with a compound. -/
def beginsCompound (text : Text) : Bool :=
  match enclosed? text with
  | some (inner, _) => hasSeparator inner
  | none => false

/-- The number of compounds, over all depths. -/
def compoundCount : Text → Nat
  | [] => 0
  | c :: rest => (if beginsCompound (c :: rest) then 1 else 0) + compoundCount rest

/-- What is preserved of a text when its compounds are lifted out, given the texts between their
brackets. -/
structure IsLifting (text : Text) (lifted : Lifted) (inners : List Text) : Prop where
  compounds_eq : lifted.compounds = inners.map trim
  sublist : ∀ inner ∈ inners, inner.Sublist text
  length_lt : ∀ inner ∈ inners, inner.length < text.length
  isClosed : ∀ inner ∈ inners, IsClosed inner
  separatorCount_eq :
    separatorCount text = separatorCount lifted.text + (inners.map separatorCount).sum
  compoundCount_eq : IsClosed text →
    compoundCount text = (inners.map fun inner => compoundCount inner + 1).sum

/-! ### Counting compounds -/

section Compounds

variable {front text inner after : Text} {c : Char}

/-- A text has a separator if there is one to count. -/
theorem hasSeparator_eq_true_iff : hasSeparator text = true ↔ separatorCount text ≠ 0 := by
  induction text with
  | nil => simp [hasSeparator]
  | cons c rest ih =>
    rw [hasSeparator, Bool.or_eq_true]
    cases h : separator? (c :: rest) with
    | none => simp [separatorCount_cons h, ih]
    | some found => simp [separatorCount_of_separator h]

/-- Brackets belong to no separator. -/
theorem hasSeparator_brackets (inner : Text) :
    hasSeparator ('(' :: (inner ++ [')'])) = hasSeparator inner := by
  have hcount : separatorCount ('(' :: (inner ++ [')'])) = separatorCount inner := by
    simpa using separatorCount_brackets [] inner []
  rw [Bool.eq_iff_iff, hasSeparator_eq_true_iff, hasSeparator_eq_true_iff, hcount]

theorem beginsCompound_of_ne (hc : c ≠ '(') : beginsCompound (c :: text) = false := by
  rw [beginsCompound, enclosed?.eq_def]
  split
  · rename_i hsome
    split at hsome
    · rename_i heq
      exact absurd (List.cons.inj heq).1 hc
    · cases hsome
  · rfl

theorem compoundCount_cons_of_ne (hc : c ≠ '(') :
    compoundCount (c :: text) = compoundCount text := by
  rw [compoundCount, beginsCompound_of_ne hc]
  exact Nat.zero_add _

/-- A compound that is closed in a text is one whatever stands behind the text. -/
theorem compoundCount_append (h : IsClosed front) (back : Text) :
    compoundCount (front ++ back) = compoundCount front + compoundCount back := by
  induction front with
  | nil => rw [List.nil_append, compoundCount, Nat.zero_add]
  | cons c rest ih =>
    have hsplit : IsClosed ([c] ++ rest) := h
    have hrest := hsplit.of_append
    rw [List.cons_append]
    by_cases hopen : c = '('
    · subst hopen
      -- The bracket is closed in the front, with the same text in it.
      obtain ⟨⟨inner, after⟩, hclose⟩ := Option.isSome_iff_exists.mp (h [] rest rfl)
      have hbegins : beginsCompound ('(' :: (rest ++ back)) = beginsCompound ('(' :: rest) := by
        rw [beginsCompound, beginsCompound, enclosed?, enclosed?, hclose, closing?_append hclose]
      rw [compoundCount, compoundCount, hbegins, ih hrest, Nat.add_assoc]
    · rw [compoundCount_cons_of_ne hopen, compoundCount_cons_of_ne hopen, ih hrest]

/-- A text without opening brackets has no compound. -/
theorem compoundCount_of_not_mem (h : '(' ∉ text) : compoundCount text = 0 := by
  induction text with
  | nil => rfl
  | cons c rest ih =>
    obtain ⟨hc, hrest⟩ := List.ne_and_not_mem_of_not_mem_cons h
    rw [compoundCount_cons_of_ne (Ne.symm hc), ih hrest]

/-- Without separators there are no compounds. -/
theorem compoundCount_of_separatorCount (h : separatorCount text = 0) : compoundCount text = 0 := by
  induction text with
  | nil => rfl
  | cons c rest ih =>
    have hnone : separator? (c :: rest) = none := by
      by_contra hne
      obtain ⟨⟨join, behind⟩, hsome⟩ := Option.ne_none_iff_exists'.mp hne
      rw [separatorCount_of_separator hsome] at h
      cases h
    -- The separators of a compound are separators of the text.
    have hbegins : beginsCompound (c :: rest) = false := by
      rw [beginsCompound]
      split
      · rename_i inner after henclosed
        have hcount := separatorCount_brackets [] inner after
        rw [List.nil_append, ← enclosed?_eq_some henclosed, h] at hcount
        rw [Bool.eq_false_iff, Ne, hasSeparator_eq_true_iff]
        omega
      · rfl
    rw [separatorCount_cons hnone] at h
    rw [compoundCount, hbegins, ih h]
    rfl

/-- The compounds of a pair of brackets are the pair itself, if it is one, and those in it. -/
theorem compoundCount_brackets (hfront : '(' ∉ front)
    (hclose : closing? 1 (inner ++ ')' :: after) = some (inner, after)) :
    compoundCount (front ++ '(' :: (inner ++ ')' :: after)) =
      (if hasSeparator inner then 1 else 0) + compoundCount inner + compoundCount after := by
  have hbegins : beginsCompound ('(' :: (inner ++ ')' :: after)) = hasSeparator inner := by
    rw [beginsCompound, enclosed?, hclose]
  rw [compoundCount_append (.of_not_mem hfront), compoundCount_of_not_mem hfront, compoundCount,
    hbegins, compoundCount_append (isClosed_of_closing? hclose),
    compoundCount_cons_of_ne (by decide)]
  omega

end Compounds

/-! ### Lifting -/

namespace IsLifting

variable {front text inner after : Text} {lifted : Lifted} {inners : List Text}

/-- Without compounds nothing is lifted. -/
theorem none (h : IsClosed text → compoundCount text = 0) : IsLifting text ⟨text, []⟩ [] where
  compounds_eq := rfl
  sublist := List.forall_mem_nil _
  length_lt := List.forall_mem_nil _
  isClosed := List.forall_mem_nil _
  separatorCount_eq := rfl
  compoundCount_eq := h

/-- The text in a pair of brackets is part of the whole. -/
theorem sublist_inner (front inner after : Text) :
    inner.Sublist (front ++ '(' :: (inner ++ ')' :: after)) :=
  ((List.sublist_append_left _ _).cons _).trans (List.sublist_append_right _ _)

theorem sublist_after (front inner after : Text) :
    after.Sublist (front ++ '(' :: (inner ++ ')' :: after)) :=
  ((((List.Sublist.refl _).cons _).trans (List.sublist_append_right _ _)).cons _).trans
    (List.sublist_append_right _ _)

/-- If every bracket of a text is closed, so is every one behind a pair of brackets. -/
theorem isClosed_after (h : IsClosed (front ++ '(' :: (inner ++ ')' :: after))) :
    IsClosed after := by
  have hsplit : front ++ '(' :: (inner ++ ')' :: after) =
      (front ++ '(' :: (inner ++ [')'])) ++ after := by simp
  rw [hsplit] at h
  exact h.of_append

section Brackets

variable (hfront : '(' ∉ front)
  (hclose : closing? 1 (inner ++ ')' :: after) = some (inner, after))
  (h : IsLifting after lifted inners)
include hfront hclose h

/-- A compound in front of a text is lifted with the compounds of the text. -/
theorem compound (hseparator : hasSeparator inner = true) (number : Nat) :
    IsLifting (front ++ '(' :: (inner ++ ')' :: after))
      ⟨front ++ (compoundMark number ++ lifted.text), trim inner :: lifted.compounds⟩
      (inner :: inners) where
  compounds_eq := by rw [h.compounds_eq, List.map_cons]
  sublist := List.forall_mem_cons.mpr ⟨sublist_inner front inner after,
    fun text htext => (h.sublist text htext).trans (sublist_after front inner after)⟩
  length_lt := by
    refine List.forall_mem_cons.mpr ⟨by simp; omega, fun text htext => ?_⟩
    have := h.length_lt text htext
    simp
    omega
  isClosed := List.forall_mem_cons.mpr ⟨isClosed_of_closing? hclose, h.isClosed⟩
  separatorCount_eq := by
    rw [separatorCount_brackets, separatorCount_compoundMark, h.separatorCount_eq, List.map_cons,
      List.sum_cons]
    omega
  compoundCount_eq hclosed := by
    rw [compoundCount_brackets hfront hclose, if_pos hseparator,
      h.compoundCount_eq (isClosed_after hclosed), List.map_cons, List.sum_cons]
    omega

/-- Other brackets stay where they are. -/
theorem pair (hseparator : hasSeparator inner = false) :
    IsLifting (front ++ '(' :: (inner ++ ')' :: after))
      ⟨front ++ '(' :: (inner ++ ')' :: lifted.text), lifted.compounds⟩ inners where
  compounds_eq := h.compounds_eq
  sublist text htext := (h.sublist text htext).trans (sublist_after front inner after)
  length_lt text htext := by
    have := h.length_lt text htext
    simp
    omega
  isClosed := h.isClosed
  separatorCount_eq := by
    rw [separatorCount_brackets, separatorCount_brackets, h.separatorCount_eq]
    omega
  compoundCount_eq hclosed := by
    have hnone : separatorCount inner = 0 := by
      by_contra hne
      rw [hasSeparator_eq_true_iff.mpr hne] at hseparator
      cases hseparator
    rw [compoundCount_brackets hfront hclose, hseparator, compoundCount_of_separatorCount hnone,
      h.compoundCount_eq (isClosed_after hclosed)]
    simp

end Brackets

end IsLifting

section Lifting

variable {front text back : Text}

/-- Lifting loses no separator and no compound. -/
theorem exists_isLifting (number : Nat) (text : Text) :
    ∃ inners, IsLifting text (liftCompoundsFrom number text) inners := by
  fun_induction liftCompoundsFrom number text with
  | case1 number text hcut =>
    exact ⟨[], .none fun _ => compoundCount_of_not_mem (cut?_eq_none_iff.mp hcut)⟩
  | case2 number text before behind hcut hclose =>
    -- Lifting ends at a bracket that is not closed, so what it misses is not promised.
    refine ⟨[], .none fun hclosed => ?_⟩
    have hsome := hclosed before behind (cut?_eq_some hcut)
    rw [hclose] at hsome
    cases hsome
  | case3 number text before behind hcut inner after hclose pair hseparator lifted ih =>
    obtain ⟨inners, h⟩ := ih
    obtain rfl := closing?_eq_some hclose
    have hinner : hasSeparator inner = true := (hasSeparator_brackets inner).symm.trans hseparator
    rw [cut?_eq_some hcut, List.append_assoc]
    exact ⟨inner :: inners, h.compound (not_mem_of_cut?_eq_some hcut) hclose hinner number⟩
  | case4 number text before behind hcut inner after hclose pair hseparator lifted ih =>
    obtain ⟨inners, h⟩ := ih
    obtain rfl := closing?_eq_some hclose
    have hinner : hasSeparator inner = false :=
      (hasSeparator_brackets inner).symm.trans (Bool.eq_false_iff.mpr hseparator)
    have hpair : before ++ pair ++ lifted.text =
        before ++ '(' :: (inner ++ ')' :: lifted.text) := by simp [pair]
    rw [cut?_eq_some hcut, hpair]
    exact ⟨inners, h.pair (not_mem_of_cut?_eq_some hcut) hclose hinner⟩

/-- Text without brackets behind a text stays where it is. -/
theorem liftCompoundsFrom_append_right (hopen : '(' ∉ back) (hclosing : ')' ∉ back) (number : Nat)
    (text : Text) : liftCompoundsFrom number (text ++ back) =
      ⟨(liftCompoundsFrom number text).text ++ back,
        (liftCompoundsFrom number text).compounds⟩ := by
  fun_induction liftCompoundsFrom number text with
  | case1 number text hcut =>
    have hmem := cut?_eq_none_iff.mp hcut
    exact liftCompoundsFrom_of_not_mem (by simp [hmem, hopen])
  | case2 number text before behind hcut hclose =>
    -- Text without brackets does not close what is open.
    have hnone := closing?_append_eq_none hclose hclosing
    rw [cut?_eq_some hcut, List.append_assoc, List.cons_append,
      liftCompoundsFrom_open (not_mem_of_cut?_eq_some hcut) hnone]
  | case3 number text before behind hcut inner after hclose pair hseparator lifted ih =>
    have hpair : hasSeparator ('(' :: (inner ++ [')'])) = true := hseparator
    have hclose' := closing?_append hclose back
    rw [cut?_eq_some hcut, List.append_assoc, List.cons_append,
      liftCompoundsFrom_closed (not_mem_of_cut?_eq_some hcut) hclose', if_pos hpair, ih]
    simp only [List.append_assoc]
    rfl
  | case4 number text before behind hcut inner after hclose pair hseparator lifted ih =>
    have hpair : ¬ hasSeparator ('(' :: (inner ++ [')'])) = true := hseparator
    have hclose' := closing?_append hclose back
    rw [cut?_eq_some hcut, List.append_assoc, List.cons_append,
      liftCompoundsFrom_closed (not_mem_of_cut?_eq_some hcut) hclose', if_neg hpair, ih]
    simp only [List.append_assoc]
    rfl

/-- Text without brackets at the ends stays where it is. -/
theorem liftCompoundsFrom_append (hfront : '(' ∉ front) (hopen : '(' ∉ back)
    (hclosing : ')' ∉ back) (number : Nat) (text : Text) :
    liftCompoundsFrom number (front ++ (text ++ back)) =
      ⟨front ++ ((liftCompoundsFrom number text).text ++ back),
        (liftCompoundsFrom number text).compounds⟩ := by
  have hlifts : Lifts number front front [] := .plain hfront
  rw [hlifts, List.length_nil, Nat.add_zero, liftCompoundsFrom_append_right hopen hclosing]
  rfl

end Lifting

end SignalScript
