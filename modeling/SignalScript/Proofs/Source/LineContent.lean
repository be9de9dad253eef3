import SignalScript.Proofs.Source.Characters

/-!
# What logical lines do not contain

A logical line is a part of a physical line, in capitals and without its comments, in which a space
has been put between `IF` and a bracket. Nothing opens a comment in it: a comment that is closed
leaves a space, which keeps the text on its two sides apart. And where a space is put in, no `IF`
comes to stand in front of another bracket.

## Main definitions

* `OpensNothing` — two neighbouring characters that do not open a comment
* `Text.IsClean` — the shape of a logical line, with all that it does not contain

## Main results

* `Comment.isChain_strip` — nothing opens a comment where comments have been taken out
* `not_infix_spaceIf` — no bracket is right behind an `IF` where spaces have been put in
* `isClean_logicalLines` — the lines of every file are clean, and their numbers never decrease
-/

namespace SignalScript

/-- The two characters, next to each other, do not open a comment. -/
def OpensNothing (c d : Char) : Prop := c = '/' → d ≠ '/' ∧ d ≠ '*'

namespace Text

/-- The shape of a logical line, and all that the reader of lines has taken out or changed. -/
structure IsClean (text : Text) : Prop where
  shape : text.IsLine
  tab : '\t' ∉ text
  lineComment : ¬ "//".toList <:+: text
  blockComment : ¬ "/*".toList <:+: text
  bracket : ¬ "IF(".toList <:+: text

theorem not_infix_of_opensNothing {text : Text} {d : Char} (h : text.IsChain OpensNothing)
    (hd : d = '/' ∨ d = '*') : ¬ ['/', d] <:+: text := by
  intro hinfix
  have hpair : ['/', d].IsChain OpensNothing := List.IsChain.infix h hinfix
  obtain ⟨hslash, hstar⟩ := List.isChain_pair.mp hpair rfl
  exact hd.elim hslash hstar

end Text

/-! ### Comments -/

section Comments

namespace Comment

variable {text : Text}

/-- What does not begin with a slash begins no comment. -/
theorem head?_strip (h : text.head? ≠ some '/') : (strip false text).text.head? = text.head? := by
  cases text with
  | nil => rfl
  | cons c rest =>
    have hc : c ≠ '/' := fun hslash => h (congrArg some hslash)
    rw [strip]
    · rfl
    · rintro behind rfl -
      exact hc rfl
    · rintro behind rfl -
      exact hc rfl

/-- No two halves of an opener meet where a comment has been taken out. -/
theorem isChain_strip (inside : Bool) (text : Text) :
    (strip inside text).text.IsChain OpensNothing := by
  fun_induction strip inside text with
  | case1 rest ih =>
    -- The space that a closed comment leaves keeps its neighbours apart.
    refine List.isChain_cons.mpr ⟨fun d _ hspace => ?_, ih⟩
    exact absurd hspace (by decide)
  | case2 c rest _ ih => exact ih
  | case3 => exact .nil
  | case4 => exact .nil
  | case5 rest ih => exact ih
  | case6 c rest hline hblock ih =>
    refine List.isChain_cons.mpr ⟨?_, ih⟩
    rintro d hd rfl
    have hrest (e : Char) (he : e = '/' ∨ e = '*') : rest.head? ≠ some e := by
      intro hhead
      obtain ⟨behind, rfl⟩ := List.head?_eq_some_iff.mp hhead
      rcases he with rfl | rfl
      · exact hline behind rfl rfl
      · exact hblock behind rfl rfl
    rw [Option.mem_def, head?_strip (hrest '/' (.inl rfl))] at hd
    constructor
    · rintro rfl
      exact hrest _ (.inl rfl) hd
    · rintro rfl
      exact hrest _ (.inr rfl) hd
  | case7 => exact .nil

end Comment

end Comments

/-! ### The space behind `IF` -/

section Spacing

variable {text : Text}

theorem isChain_spaceIf (h : text.IsChain OpensNothing) : (spaceIf text).IsChain OpensNothing := by
  fun_induction spaceIf text with
  | case1 rest ih =>
    obtain ⟨hbracket, hrest⟩ := List.isChain_cons.mp (h.tail.tail)
    have hletters (c d : Char) (hc : c ≠ '/') : OpensNothing c d := fun hslash => absurd hslash hc
    refine .cons_cons (hletters _ _ (by decide)) (.cons_cons (hletters _ _ (by decide))
      (.cons_cons (hletters _ _ (by decide)) (List.isChain_cons.mpr ⟨?_, ih hrest⟩)))
    exact fun d _ => hletters _ d (by decide)
  | case2 c rest _ ih =>
    obtain ⟨hhead, hrest⟩ := List.isChain_cons.mp h
    rw [← head?_spaceIf] at hhead
    exact List.isChain_cons.mpr ⟨hhead, ih hrest⟩
  | case3 => exact .nil

/-- A text that begins like this after spaces were put in began like this before. -/
theorem head?_of_prefix_spaceIf (h : ['F', '('] <+: spaceIf text) :
    ∃ rest, text = 'F' :: '(' :: rest := by
  have hfirst : text.head? = some 'F' := by
    rw [← head?_spaceIf]
    exact List.head?_eq_some_iff.mpr ⟨_, h.choose_spec.symm⟩
  obtain ⟨behind, rfl⟩ := List.head?_eq_some_iff.mp hfirst
  have hcons : spaceIf ('F' :: behind) = 'F' :: spaceIf behind := by
    rw [spaceIf]
    rintro _ ⟨⟩
  rw [hcons, List.cons_prefix_cons] at h
  have hsecond : behind.head? = some '(' := by
    rw [← head?_spaceIf]
    exact List.head?_eq_some_iff.mpr ⟨_, h.2.choose_spec.symm⟩
  obtain ⟨rest, rfl⟩ := List.head?_eq_some_iff.mp hsecond
  exact ⟨rest, rfl⟩

/-- The spaces put in leave no `IF` with a bracket right behind it. -/
theorem not_infix_spaceIf (text : Text) : ¬ "IF(".toList <:+: spaceIf text := by
  fun_induction spaceIf text with
  | case1 rest ih =>
    -- What is put in stands between the letters and the bracket.
    simpa [List.infix_cons_iff] using ih
  | case2 c rest hother ih =>
    intro hinfix
    rcases List.infix_cons_iff.mp hinfix with hprefix | hinfix
    · obtain ⟨rfl, hbehind⟩ := List.cons_prefix_cons.mp hprefix
      obtain ⟨behind, rfl⟩ := head?_of_prefix_spaceIf hbehind
      exact hother behind rfl rfl
    · exact ih hinfix
  | case3 => decide

end Spacing

/-! ### Lines -/

section Lines

open Text

variable {text line : Text} {inside : Bool}

theorem tab_notMem_normalizeLine (line : Text) : '\t' ∉ normalizeLine line := by
  intro h
  obtain ⟨c, -, hc⟩ := List.mem_map.mp h
  by_cases htab : c = '\t'
  · rw [if_pos htab] at hc
    exact absurd hc (by decide)
  · rw [if_neg htab] at hc
    exact htab hc

/-- A logical line of a physical line is clean, whether or not that begins inside a comment. -/
theorem isClean_of_mem_cutStatements
    (h : line ∈ cutStatements (Comment.strip inside (normalizeLine text)).text) :
    line.IsClean := by
  obtain ⟨part, hpart, hline⟩ := exists_infix_of_mem_cutStatements h
  have hopens : line.IsChain OpensNothing := by
    rw [hline]
    have hstripped := Comment.isChain_strip inside (normalizeLine text)
    exact isChain_spaceIf <| List.IsChain.infix hstripped hpart
  have hspace : '\t' ≠ ' ' := by decide
  refine ⟨isLine_of_mem_cutStatements _ h, ?_,
    not_infix_of_opensNothing hopens (.inl rfl), not_infix_of_opensNothing hopens (.inr rfl), ?_⟩
  · intro htab
    exact tab_notMem_normalizeLine text
      (Comment.mem_of_mem_strip inside hspace (mem_of_mem_cutStatements hspace h htab))
  · rw [hline]
    exact not_infix_spaceIf part

/-- Every logical line of a file is clean, and the numbers of the lines never decrease from the
first line to the last. -/
theorem isClean_logicalLines (bytes : List UInt8) :
    (∀ line ∈ logicalLines bytes, line.text.IsClean) ∧
      (logicalLines bytes).Pairwise fun line next => line.number ≤ next.number := by
  refine ⟨forall_mem_logicalLinesFrom (fun _ _ _ _ => isClean_of_mem_cutStatements) 1 false, ?_⟩
  have hnumbers : (logicalLines bytes).IsChain fun line next => line.number ≤ next.number := by
    refine (isChain_logicalLines bytes).imp fun line next hfollows => ?_
    rcases hfollows with hlater | ⟨hsame, -⟩
    · exact Nat.le_of_lt hlater
    · exact Nat.le_of_eq hsame
  exact List.pairwise_map.mp ((List.isChain_map LogicalLine.number).mpr hnumbers).pairwise

/-- A head with two comments side by side, and behind it a comment that ends on a later line. -/
def commentedHead : Text := "if(a/ /*x*//*y*/ *b)\t\x7bc;\x7d\n/* z\n*/if(d)e;".toList

theorem logicalLines_commentedHead :
    logicalLines (commentedHead.flatMap String.utf8EncodeChar) =
      [⟨"IF (A/    *B)".toList, 1⟩, ⟨['{'], 1⟩, ⟨"C;".toList, 1⟩, ⟨['}'], 1⟩,
        ⟨"IF (D)E;".toList, 3⟩] := by
  decide +kernel

theorem isClean_logicalLines_commentedHead :
    ⟨"IF (A/    *B)".toList, 1⟩ ∈ logicalLines (commentedHead.flatMap String.utf8EncodeChar) ∧
      Text.IsClean "IF (A/    *B)".toList := by
  have hmem : ⟨"IF (A/    *B)".toList, 1⟩ ∈
      logicalLines (commentedHead.flatMap String.utf8EncodeChar) := by
    rw [logicalLines_commentedHead]
    exact List.mem_cons_self
  exact ⟨hmem, (isClean_logicalLines _).1 _ hmem⟩

end Lines

end SignalScript
