import Mathlib.Data.List.Infix
import SignalScript.Proofs.Splitting
import SignalScript.Text.Bracket

/-!
# Balanced texts

A text is balanced if it closes as many brackets as it opens and nowhere closes more than it has
opened. The bracket behind a balanced text closes the one in front of it.

## Main definitions

* `Text.IsBalanced` — the brackets of a text match
* `Text.IsClosed` — every opening bracket of a text is closed

## Main results

* `Text.closing?_of_isBalanced`, `Text.enclosed?_of_isBalanced` — a balanced text is what its
  brackets enclose
* `Text.isBalanced_of_enclosed?` — what brackets enclose is balanced
* `Text.closing?_append` — what closes in a text also closes in front of more text
* `Text.isClosed_of_closing?` — what is opened between matching brackets is closed there
-/

namespace SignalScript.Text

/-- As many brackets are closed as opened, and nowhere more. -/
structure IsBalanced (text : Text) : Prop where
  closed_le : ∀ front, front <+: text → front.count ')' ≤ front.count '('
  closed_eq : text.count ')' = text.count '('

instance (text : Text) : Decidable (IsBalanced text) :=
  decidable_of_iff
    ((∀ front ∈ text.inits, front.count ')' ≤ front.count '(') ∧ text.count ')' = text.count '(')
    ⟨fun ⟨hle, heq⟩ => ⟨fun front hfront => hle front ((List.mem_inits _ _).mpr hfront), heq⟩,
      fun h =>
        ⟨fun front hfront => h.closed_le front ((List.mem_inits _ _).mp hfront), h.closed_eq⟩⟩

/-- Every opening bracket is closed. -/
def IsClosed (text : Text) : Prop :=
  ∀ front behind, text = front ++ '(' :: behind → (closing? 1 behind).isSome = true

section Closing

variable {text before after : Text} {depth : Nat}

/-- The same cut with one more character in front. -/
private def pushFront (c : Char) (cut : Text × Text) : Text × Text := (c :: cut.1, cut.2)

private theorem closing?_open (depth : Nat) (rest : Text) :
    closing? depth ('(' :: rest) = (closing? (depth + 1) rest).map (pushFront '(') := by
  rw [closing?.eq_def]
  rfl

private theorem closing?_close (depth : Nat) (rest : Text) :
    closing? (depth + 2) (')' :: rest) = (closing? (depth + 1) rest).map (pushFront ')') := by
  rw [closing?.eq_def]
  rfl

private theorem closing?_other {c : Char} (hopen : c ≠ '(') (hclose : c ≠ ')') (depth : Nat)
    (rest : Text) : closing? depth (c :: rest) = (closing? depth rest).map (pushFront c) := by
  rw [closing?.eq_def]
  simp only [if_neg hopen, if_neg hclose]
  rfl

/-- The text up to the bracket that closes the first of `depth + 1` open ones, when `depth` of them
are closed in it. -/
private theorem closing?_of_counts (after : Text)
    (hle : ∀ front, front <+: text → front.count ')' ≤ depth + front.count '(')
    (heq : text.count ')' = depth + text.count '(') :
    closing? (depth + 1) (text ++ ')' :: after) = some (text, after) := by
  induction text generalizing depth with
  | nil =>
    obtain rfl : depth = 0 := by simpa using heq.symm
    rfl
  | cons c rest ih =>
    have hrest (front : Text) (hfront : front <+: rest) :
        (c :: front).count ')' ≤ depth + (c :: front).count '(' :=
      hle _ (List.cons_prefix_cons.mpr ⟨rfl, hfront⟩)
    rw [List.cons_append]
    -- The induction is on the text: a bracket in front moves the depth by one, and what is left to
    -- count with it.
    by_cases hopen : c = '('
    · subst hopen
      have step : closing? (depth + 2) (rest ++ ')' :: after) = some (rest, after) :=
        ih (fun front hfront => by have := hrest front hfront; simp at this; omega)
          (by simp at heq; omega)
      rw [closing?_open, step]
      rfl
    · by_cases hclose : c = ')'
      · subst hclose
        cases depth with
        | zero =>
          -- One bracket closed and none opened is more than the text may close.
          exact absurd (hrest [] List.nil_prefix) (by simp)
        | succ depth =>
          have step : closing? (depth + 1) (rest ++ ')' :: after) = some (rest, after) :=
            ih (fun front hfront => by have := hrest front hfront; simp at this; omega)
              (by simp at heq; omega)
          rw [closing?_close, step]
          rfl
      · have step : closing? (depth + 1) (rest ++ ')' :: after) = some (rest, after) :=
          ih (fun front hfront => by simpa [hopen, hclose] using hrest front hfront)
            (by simpa [hopen, hclose] using heq)
        rw [closing?_other hopen hclose, step]
        rfl

/-- The bracket behind a balanced text closes the one in front of it. -/
theorem closing?_of_isBalanced (h : IsBalanced text) (after : Text) :
    closing? 1 (text ++ ')' :: after) = some (text, after) :=
  closing?_of_counts after (by simpa using h.closed_le) (by simpa using h.closed_eq)

theorem enclosed?_of_isBalanced (h : IsBalanced text) (after : Text) :
    enclosed? ('(' :: (text ++ ')' :: after)) = some (text, after) :=
  closing?_of_isBalanced h after

/-- What closes in a text also closes in front of more text. -/
theorem closing?_append (h : closing? depth text = some (before, after)) (more : Text) :
    closing? depth (text ++ more) = some (before, after ++ more) := by
  induction text generalizing depth before with
  | nil => simp [closing?] at h
  | cons c rest ih =>
    rw [List.cons_append]
    by_cases hopen : c = '('
    · subst hopen
      rw [closing?_open] at h ⊢
      obtain ⟨⟨inner, behind⟩, hcut, hfront⟩ := Option.map_eq_some_iff.mp h
      obtain ⟨rfl, rfl⟩ := Prod.mk.inj hfront
      rw [ih hcut]
      rfl
    · by_cases hclose : c = ')'
      · subst hclose
        -- At depth one this is the bracket that was looked for.
        rcases depth with _ | _ | depth
        · simp [closing?] at h
        · obtain ⟨rfl, rfl⟩ := Prod.mk.inj (Option.some.inj h)
          rfl
        · rw [closing?_close] at h ⊢
          obtain ⟨⟨inner, behind⟩, hcut, hfront⟩ := Option.map_eq_some_iff.mp h
          obtain ⟨rfl, rfl⟩ := Prod.mk.inj hfront
          rw [ih hcut]
          rfl
      · rw [closing?_other hopen hclose] at h ⊢
        obtain ⟨⟨inner, behind⟩, hcut, hfront⟩ := Option.map_eq_some_iff.mp h
        obtain ⟨rfl, rfl⟩ := Prod.mk.inj hfront
        rw [ih hcut]
        rfl

/-- What does not close in a text closes behind it, if at all. -/
theorem exists_append_of_closing? {back : Text} (h : closing? depth text = none)
    (hclose : closing? depth (text ++ back) = some (before, after)) :
    ∃ part, before = text ++ part ∧ back = part ++ ')' :: after := by
  induction text generalizing depth before with
  | nil => exact ⟨before, rfl, closing?_eq_some hclose⟩
  | cons c rest ih =>
    rw [List.cons_append] at hclose
    have hstep {depth : Nat} (h : closing? depth rest = none)
        (hclose : (closing? depth (rest ++ back)).map (pushFront c) = some (before, after)) :
        ∃ part, before = c :: rest ++ part ∧ back = part ++ ')' :: after := by
      obtain ⟨⟨inner, behind⟩, hcut, hfront⟩ := Option.map_eq_some_iff.mp hclose
      obtain ⟨rfl, rfl⟩ := Prod.mk.inj hfront
      obtain ⟨part, rfl, hback⟩ := ih h hcut
      exact ⟨part, rfl, hback⟩
    by_cases hopen : c = '('
    · subst hopen
      rw [closing?_open] at h hclose
      exact hstep (Option.map_eq_none_iff.mp h) hclose
    · by_cases hc : c = ')'
      · subst hc
        rcases depth with _ | _ | depth
        · cases hclose
        · cases h
        · rw [closing?_close] at h hclose
          exact hstep (Option.map_eq_none_iff.mp h) hclose
      · rw [closing?_other hopen hc] at h hclose
        exact hstep (Option.map_eq_none_iff.mp h) hclose

/-- What does not close in a text does not close behind it, unless more is closed there. -/
theorem closing?_append_eq_none {back : Text} (h : closing? depth text = none)
    (hback : ')' ∉ back) : closing? depth (text ++ back) = none := by
  by_contra hne
  obtain ⟨⟨inner, behind⟩, hclose⟩ := Option.ne_none_iff_exists'.mp hne
  obtain ⟨part, -, rfl⟩ := exists_append_of_closing? h hclose
  exact hback (List.mem_append_right _ List.mem_cons_self)

private theorem map_pushFront {c : Char} {cut : Option (Text × Text)} :
    cut.map (pushFront c) = some (c :: before, after) ↔ cut = some (before, after) := by
  constructor
  · intro h
    obtain ⟨⟨inner, behind⟩, rfl, hfront⟩ := Option.map_eq_some_iff.mp h
    cases hfront
    rfl
  · rintro rfl
    rfl

/-- What closes several brackets closes the last of them first. -/
theorem isSome_closing?_of_deeper {deeper : Nat}
    (h : closing? (depth + 1 + deeper) (text ++ ')' :: after) = some (text, after))
    (hdeeper : 0 < deeper) : (closing? deeper text).isSome = true := by
  induction text generalizing deeper with
  | nil =>
    -- One bracket does not close two.
    obtain ⟨more, rfl⟩ : ∃ more, deeper = more + 1 := Nat.exists_eq_succ_of_ne_zero (by omega)
    rw [List.nil_append, show depth + 1 + (more + 1) = depth + more + 2 by omega,
      closing?_close] at h
    obtain ⟨_, -, hcut⟩ := Option.map_eq_some_iff.mp h
    cases (Prod.mk.inj hcut).1
  | cons c rest ih =>
    rw [List.cons_append] at h
    by_cases hopen : c = '('
    · subst hopen
      rw [closing?_open, map_pushFront] at h
      rw [closing?_open, Option.isSome_map]
      exact ih h (Nat.succ_pos _)
    · by_cases hclose : c = ')'
      · subst hclose
        rcases deeper with _ | _ | deeper
        · cases hdeeper
        · rfl
        · rw [show depth + 1 + (deeper + 1 + 1) = depth + 1 + deeper + 2 by omega,
            closing?_close, map_pushFront] at h
          rw [closing?_close, Option.isSome_map]
          exact ih h (Nat.succ_pos _)
      · rw [closing?_other hopen hclose, map_pushFront] at h
        rw [closing?_other hopen hclose, Option.isSome_map]
        exact ih h hdeeper

end Closing

namespace IsClosed

variable {text front back : Text} {c : Char}

theorem of_not_mem (h : '(' ∉ text) : IsClosed text := by
  rintro front behind rfl
  exact absurd (List.mem_append_right _ List.mem_cons_self) h

theorem cons (hc : c = '(' → (closing? 1 text).isSome = true) (h : IsClosed text) :
    IsClosed (c :: text) := by
  have hsplit : ∀ front d back, c :: text = front ++ d :: back → d = '(' →
      (closing? 1 back).isSome = true :=
    forall_split_cons hc fun front d back heq hd => h front back (hd ▸ heq)
  exact fun front behind heq => hsplit front '(' behind heq rfl

theorem of_append (h : IsClosed (front ++ back)) : IsClosed back := fun before behind heq =>
  h (front ++ before) behind (by rw [heq, List.append_assoc])

end IsClosed

/-- What is opened between two brackets that match is closed there. -/
theorem isClosed_of_closing? {text after : Text} {depth : Nat}
    (h : closing? (depth + 1) (text ++ ')' :: after) = some (text, after)) : IsClosed text := by
  induction text generalizing depth with
  | nil => exact .of_not_mem List.not_mem_nil
  | cons c rest ih =>
    rw [List.cons_append] at h
    by_cases hopen : c = '('
    · subst hopen
      rw [closing?_open, map_pushFront] at h
      exact .cons (fun _ => isSome_closing?_of_deeper h Nat.one_pos) (ih h)
    · refine .cons (fun heq => absurd heq hopen) ?_
      by_cases hclose : c = ')'
      · subst hclose
        cases depth with
        | zero => cases h
        | succ depth =>
          rw [closing?_close, map_pushFront] at h
          exact ih h
      · rw [closing?_other hopen hclose, map_pushFront] at h
        exact ih h

/-- Up to the bracket that closes the first of `depth + 1` open ones, `depth` of them are closed. -/
private theorem counts_of_closing? {text after : Text} {depth : Nat}
    (h : closing? (depth + 1) (text ++ ')' :: after) = some (text, after)) :
    (∀ front, front <+: text → front.count ')' ≤ depth + front.count '(') ∧
      text.count ')' = depth + text.count '(' := by
  induction text generalizing depth with
  | nil =>
    -- The bracket closes the only open one.
    cases depth with
    | zero => exact ⟨fun front hfront => by simp [List.prefix_nil.mp hfront], rfl⟩
    | succ depth =>
      rw [List.nil_append, closing?_close] at h
      obtain ⟨_, -, hcut⟩ := Option.map_eq_some_iff.mp h
      cases (Prod.mk.inj hcut).1
  | cons c rest ih =>
    rw [List.cons_append] at h
    -- A beginning is empty, or goes on behind the first character.
    have hstep (hrest : ∀ front, front <+: rest →
        (c :: front).count ')' ≤ depth + (c :: front).count '(') (front : Text)
        (hfront : front <+: c :: rest) : front.count ')' ≤ depth + front.count '(' := by
      rcases List.prefix_cons_iff.mp hfront with rfl | ⟨part, rfl, hpart⟩
      · exact Nat.zero_le _
      · exact hrest part hpart
    by_cases hopen : c = '('
    · subst hopen
      rw [closing?_open, map_pushFront] at h
      obtain ⟨hle, heq⟩ := ih h
      exact ⟨hstep fun front hfront => by have := hle front hfront; simp; omega, by simp; omega⟩
    · by_cases hclose : c = ')'
      · subst hclose
        cases depth with
        | zero => cases h
        | succ depth =>
          rw [closing?_close, map_pushFront] at h
          obtain ⟨hle, heq⟩ := ih h
          exact ⟨hstep fun front hfront => by have := hle front hfront; simp; omega,
            by simp; omega⟩
      · rw [closing?_other hopen hclose, map_pushFront] at h
        obtain ⟨hle, heq⟩ := ih h
        exact ⟨hstep fun front hfront => by simpa [hopen, hclose] using hle front hfront,
          by simpa [hopen, hclose] using heq⟩

/-- What a pair of brackets encloses is balanced. -/
theorem isBalanced_of_enclosed? {text inner after : Text}
    (h : enclosed? text = some (inner, after)) : IsBalanced inner := by
  obtain rfl := enclosed?_eq_some h
  have hcounts : (∀ front, front <+: inner → front.count ')' ≤ 0 + front.count '(') ∧
      inner.count ')' = 0 + inner.count '(' := counts_of_closing? h
  exact ⟨by simpa using hcounts.1, by simpa using hcounts.2⟩

namespace IsBalanced

variable {text front back : Text}

theorem of_not_mem (hopen : '(' ∉ text) (hclose : ')' ∉ text) : IsBalanced text where
  closed_le front hfront := by
    rw [List.count_eq_zero.mpr fun h => hclose (hfront.subset h)]
    exact Nat.zero_le _
  closed_eq := by rw [List.count_eq_zero.mpr hopen, List.count_eq_zero.mpr hclose]

theorem append (hfront : IsBalanced front) (hback : IsBalanced back) :
    IsBalanced (front ++ back) where
  closed_le part hpart := by
    -- A beginning ends in the first text, or holds all of it and a beginning of the second.
    rcases List.prefix_or_prefix_of_prefix hpart (List.prefix_append front back) with h | ⟨q, rfl⟩
    · exact hfront.closed_le part h
    · have := hback.closed_le q ((List.prefix_append_right_inj front).mp hpart)
      have := hfront.closed_eq
      simp only [List.count_append]
      omega
  closed_eq := by simp only [List.count_append, hfront.closed_eq, hback.closed_eq]

/-- A pair of brackets around a balanced text is balanced. -/
theorem enclose (h : IsBalanced text) : IsBalanced ('(' :: (text ++ [')'])) where
  closed_le part hpart := by
    rcases List.prefix_cons_iff.mp hpart with rfl | ⟨rest, rfl, hrest⟩
    · simp
    · -- Behind the opening bracket one more may be closed.
      rcases List.prefix_concat_iff.mp hrest with rfl | hinner
      · simp [h.closed_eq]
      · have := h.closed_le rest hinner
        simp
        omega
  closed_eq := by simp [h.closed_eq]

end IsBalanced

end SignalScript.Text
