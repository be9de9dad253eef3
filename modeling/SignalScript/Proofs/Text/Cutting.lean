import SignalScript.Proofs.Text.Trimming

/-!
# Cutting texts

Where the cuts of a text fall: at the first or last occurrence of a character, and at all of them.

## Main results

* `Text.cut?_append_cons`, `Text.cutLast?_append_cons` — a cut at the first or last occurrence
* `Text.cutWhere?_append_cons` — a cut at the first character of a class
* `Text.cut?_eq_none_iff` — a text is not cut at a character that it does not hold
* `Text.pieces_append_cons` — the pieces on both sides of an occurrence
* `Text.map_trim_pieces_trim` — trimming a text first changes no trimmed piece of it
-/

namespace SignalScript.Text

variable {c : Char} {text before after : Text}

theorem cut?_eq_none_iff : cut? c text = none ↔ c ∉ text := by
  induction text with
  | nil => simp [cut?]
  | cons d rest ih =>
    rw [cut?]
    by_cases hd : d = c
    · simp [hd]
    · simp [hd, ih, Ne.symm hd]

/-- A text is cut at the first occurrence. -/
theorem cut?_append_cons (h : c ∉ before) (after : Text) :
    cut? c (before ++ c :: after) = some (before, after) := by
  induction before with
  | nil => simp [cut?]
  | cons d rest ih =>
    obtain ⟨hd, hrest⟩ := List.ne_and_not_mem_of_not_mem_cons h
    rw [List.cons_append, cut?, if_neg (Ne.symm hd), ih hrest, Option.map_some]

theorem not_mem_of_cut?_eq_some (h : cut? c text = some (before, after)) : c ∉ before := by
  induction text generalizing before with
  | nil => simp [cut?] at h
  | cons d rest ih =>
    rw [cut?] at h
    by_cases hd : d = c
    · rw [if_pos hd] at h
      simp [← (Prod.mk.inj (Option.some.inj h)).1]
    · rw [if_neg hd] at h
      obtain ⟨⟨front, back⟩, hcut, hpair⟩ := Option.map_eq_some_iff.mp h
      obtain ⟨rfl, rfl⟩ := Prod.mk.inj hpair
      simp [Ne.symm hd, ih hcut]

/-- More text behind does not move a cut. -/
theorem cut?_append (h : cut? c text = some (before, after)) (more : Text) :
    cut? c (text ++ more) = some (before, after ++ more) := by
  rw [cut?_eq_some h, List.append_assoc, List.cons_append,
    cut?_append_cons (not_mem_of_cut?_eq_some h)]

theorem cut?_append_of_not_mem (h : c ∉ before) (text : Text) :
    cut? c (before ++ text) = (cut? c text).map (Prod.map (before ++ ·) id) := by
  induction before with
  | nil => exact Option.map_id'.symm
  | cons d before ih =>
    obtain ⟨hd, hbefore⟩ := List.ne_and_not_mem_of_not_mem_cons h
    rw [List.cons_append, cut?, if_neg (Ne.symm hd), ih hbefore]
    cases cut? c text <;> rfl

/-- A text is cut at the first character of a class. -/
theorem cutWhere?_append_cons {p : Char → Bool} (h : ∀ d ∈ before, p d = false) (hc : p c = true)
    (after : Text) : cutWhere? p (before ++ c :: after) = some (before, c, after) := by
  induction before with
  | nil => rw [List.nil_append, cutWhere?, if_pos hc]
  | cons d rest ih =>
    obtain ⟨hd, hrest⟩ := List.forall_mem_cons.mp h
    rw [List.cons_append, cutWhere?, hd, if_neg Bool.false_ne_true, ih hrest, Option.map_some]

theorem cutWhere?_eq_none {p : Char → Bool} (h : ∀ d ∈ text, p d = false) :
    cutWhere? p text = none := by
  induction text with
  | nil => rfl
  | cons d rest ih =>
    obtain ⟨hd, hrest⟩ := List.forall_mem_cons.mp h
    rw [cutWhere?, hd, if_neg Bool.false_ne_true, ih hrest, Option.map_none]

theorem cutLast?_eq_none (h : c ∉ text) : cutLast? c text = none := by
  induction text with
  | nil => rfl
  | cons d rest ih =>
    obtain ⟨hd, hrest⟩ := List.ne_and_not_mem_of_not_mem_cons h
    rw [cutLast?, ih hrest]
    exact if_neg (Ne.symm hd)

theorem length_of_cutLast? (h : cutLast? c text = some before) : before.length < text.length := by
  induction text generalizing before with
  | nil => cases h
  | cons d rest ih =>
    rw [cutLast?] at h
    split at h
    · rename_i hrest
      obtain rfl := Option.some.inj h
      exact Nat.succ_lt_succ (ih hrest)
    · split at h
      · obtain rfl := Option.some.inj h
        exact Nat.succ_pos _
      · cases h

/-- The last occurrence stands behind all others. -/
theorem cutLast?_append_of_some (front : Text) (h : cutLast? c text = some before) :
    cutLast? c (front ++ text) = some (front ++ before) := by
  induction front with
  | nil => exact h
  | cons d front ih => rw [List.cons_append, cutLast?, ih, List.cons_append]

theorem cutLast?_append_of_none (front : Text) (h : cutLast? c text = none) :
    cutLast? c (front ++ text) = cutLast? c front := by
  induction front with
  | nil => exact h
  | cons d front ih => rw [List.cons_append, cutLast?, cutLast?, ih]

/-- What is cut off is the text from the last occurrence on. -/
theorem cutLast?_append_cons (before : Text) (h : c ∉ after) :
    cutLast? c (before ++ c :: after) = some before := by
  have hlast : cutLast? c (c :: after) = some [] := by
    rw [cutLast?, cutLast?_eq_none h]
    exact if_pos rfl
  simpa using cutLast?_append_of_some before hlast

theorem pieces_of_not_mem (h : c ∉ text) : pieces c text = [text] := by
  induction text with
  | nil => rfl
  | cons d rest ih =>
    obtain ⟨hd, hrest⟩ := List.ne_and_not_mem_of_not_mem_cons h
    rw [pieces, if_neg (Ne.symm hd), ih hrest]

/-- The piece in front of the first occurrence stands alone. -/
theorem pieces_append_cons (h : c ∉ before) (after : Text) :
    pieces c (before ++ c :: after) = before :: pieces c after := by
  induction before with
  | nil => simp [pieces]
  | cons d rest ih =>
    obtain ⟨hd, hrest⟩ := List.ne_and_not_mem_of_not_mem_cons h
    rw [List.cons_append, pieces, if_neg (Ne.symm hd), ih hrest]

theorem pieces_append (front back : Text) :
    pieces c (front ++ c :: back) = pieces c front ++ pieces c back := by
  induction front with
  | nil => simp [pieces]
  | cons d front ih =>
    rw [List.cons_append, pieces, pieces, ih]
    by_cases hd : d = c
    · rw [if_pos hd, if_pos hd, List.cons_append]
    · obtain ⟨piece, more, hpieces⟩ := List.exists_cons_of_ne_nil (pieces_ne_nil c front)
      rw [if_neg hd, if_neg hd, hpieces]
      rfl

theorem length_pieces (c : Char) (text : Text) : (pieces c text).length = text.count c + 1 := by
  induction text with
  | nil => rfl
  | cons d text ih =>
    rw [pieces, List.count_cons]
    by_cases hd : d = c
    · simp [hd, ih]
    · obtain ⟨piece, more, hpieces⟩ := List.exists_cons_of_ne_nil (pieces_ne_nil c text)
      rw [hpieces] at ih
      simpa [hd, hpieces] using ih

/-- A text is cut at every occurrence. -/
theorem not_mem_of_mem_pieces {piece : Text} (h : piece ∈ pieces c text) : c ∉ piece := by
  induction text generalizing piece with
  | nil => simp_all [pieces]
  | cons d rest ih =>
    rw [pieces] at h
    split at h
    · rcases List.mem_cons.mp h with rfl | h
      · exact List.not_mem_nil
      · exact ih h
    · rename_i hd
      split at h
      · rename_i hpieces
        exact absurd hpieces (pieces_ne_nil c rest)
      · rename_i first more hpieces
        rcases List.mem_cons.mp h with rfl | h
        · have hfirst : c ∉ first := ih (hpieces ▸ List.mem_cons_self)
          simp [Ne.symm hd, hfirst]
        · exact ih (hpieces ▸ List.mem_cons_of_mem _ h)

theorem length_le_of_mem_pieces {piece : Text} (h : piece ∈ pieces c text) :
    piece.length ≤ text.length := by
  induction text generalizing piece with
  | nil =>
    obtain rfl := List.mem_singleton.mp h
    exact Nat.le_refl 0
  | cons d rest ih =>
    rw [pieces] at h
    split at h
    · rcases List.mem_cons.mp h with rfl | h
      · exact Nat.zero_le _
      · exact Nat.le_succ_of_le (ih h)
    · split at h
      · rename_i hpieces
        exact absurd hpieces (pieces_ne_nil c rest)
      · rename_i first more hpieces
        rcases List.mem_cons.mp h with rfl | h
        · exact Nat.succ_le_succ (ih (hpieces ▸ List.mem_cons_self))
        · exact Nat.le_succ_of_le (ih (hpieces ▸ List.mem_cons_of_mem _ h))

theorem joinedBy_cons {texts : List Text} (h : texts ≠ []) (separator : Text) :
    joinedBy separator (text :: texts) = text ++ (separator ++ joinedBy separator texts) := by
  obtain ⟨next, more, rfl⟩ := List.exists_cons_of_ne_nil h
  rw [← List.append_assoc]
  rfl

/-- Texts without the separator are the pieces of what they are joined to. -/
theorem pieces_joinedBy {texts : List Text} (hne : texts ≠ []) (h : ∀ text ∈ texts, c ∉ text) :
    pieces c (joinedBy [c] texts) = texts := by
  induction texts with
  | nil => exact absurd rfl hne
  | cons text more ih =>
    have htext := h text List.mem_cons_self
    cases more with
    | nil => exact pieces_of_not_mem htext
    | cons next later =>
      rw [joinedBy, List.append_assoc, List.singleton_append, pieces_append_cons htext,
        ih (List.cons_ne_nil _ _) fun text hmem => h text (List.mem_cons_of_mem _ hmem)]
      simp

section Trimmed

theorem map_trim_pieces_append_left {front : Text} (hfront : ∀ d ∈ front, isBlank d = true)
    (hc : isBlank c = false) (text : Text) :
    (pieces c (front ++ text)).map trim = (pieces c text).map trim := by
  induction front with
  | nil => rfl
  | cons b front ih =>
    have hb := hfront b List.mem_cons_self
    have hbc : b ≠ c := by
      rintro rfl
      rw [hb] at hc
      cases hc
    -- The blank goes to the first piece, which is trimmed.
    rw [← ih fun d hd => hfront d (List.mem_cons_of_mem _ hd), List.cons_append, pieces, if_neg hbc]
    cases hpieces : pieces c (front ++ text) with
    | nil => exact absurd hpieces (pieces_ne_nil c _)
    | cons piece more => simp only [List.map_cons, trim_cons_of_blank hb]

/-- Blanks behind a text belong to its last piece. -/
theorem map_trimEnd_pieces_append_right {back : Text} (hback : ∀ d ∈ back, isBlank d = true)
    (hc : isBlank c = false) (text : Text) :
    (pieces c (text ++ back)).map trimEnd = (pieces c text).map trimEnd := by
  induction text with
  | nil =>
    -- A blank is no separator, so the blanks alone are one piece.
    have hmem := not_mem_of_blank hback hc
    rw [List.nil_append, pieces_of_not_mem hmem, pieces, List.map_singleton, List.map_singleton,
      ← List.nil_append back, trimEnd_append_of_blank hback]
  | cons d rest ih =>
    rw [List.cons_append, pieces, pieces]
    by_cases hd : d = c
    · rw [if_pos hd, if_pos hd, List.map_cons, List.map_cons, ih]
    · -- The character goes to the first piece on both sides.
      rw [if_neg hd, if_neg hd]
      cases hlong : pieces c (rest ++ back) with
      | nil => exact absurd hlong (pieces_ne_nil c _)
      | cons piece more =>
        cases hshort : pieces c rest with
        | nil => exact absurd hshort (pieces_ne_nil c _)
        | cons piece' more' =>
          rw [hlong, hshort] at ih
          obtain ⟨hpiece, hmore⟩ := List.cons.inj ih
          simp only [List.map_cons, trimEnd_cons, hpiece, hmore]

/-- Trimming a text first changes no trimmed piece of it. -/
theorem map_trim_pieces_trim (hc : isBlank c = false) (text : Text) :
    (pieces c (trim text)).map trim = (pieces c text).map trim := by
  obtain ⟨front, hfront, hstart⟩ := exists_append_trimStart text
  obtain ⟨back, hback, hend⟩ := exists_trimEnd_append (trimStart text)
  have htrim (piece : Text) : trim piece = trim (trimEnd piece) := (trim_trimEnd piece).symm
  -- The blanks behind are given back first, then those in front.
  calc (pieces c (trim text)).map trim
      = ((pieces c (trim text)).map trimEnd).map trim := by
        rw [List.map_map]
        exact List.map_congr_left fun piece _ => htrim piece
    _ = ((pieces c (trimStart text)).map trimEnd).map trim := by
        rw [trim, ← map_trimEnd_pieces_append_right hback hc, ← hend]
    _ = (pieces c (trimStart text)).map trim := by
        rw [List.map_map]
        exact (List.map_congr_left fun piece _ => htrim piece).symm
    _ = (pieces c text).map trim := by
        nth_rewrite 2 [hstart]
        exact (map_trim_pieces_append_left hfront hc _).symm

end Trimmed

end SignalScript.Text
