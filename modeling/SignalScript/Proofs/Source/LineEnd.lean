import Mathlib.Data.List.Forall2
import SignalScript.Proofs.Text.CaseTables
import SignalScript.Proofs.Text.Trimming
import SignalScript.Source.Line

/-!
# Ends of lines

A physical line is handed on with what ends it, a line feed or a carriage return. Neither opens or
closes a comment, and both are blanks: at the end of a line they go with a comment that reaches
there, or are trimmed off with the last piece. So the logical lines are the same without them.

## Main definitions

* `Text.IsUncut` — there is nothing in a text that lines are cut at
* `EndsAlike` — two lines are the same but for what ends the second

## Main results

* `Comment.strip_append_char` — a character behind a line stays there or goes with a comment
* `logicalLinesFrom_of_endsAlike` — the ends of physical lines change no logical line
-/

namespace SignalScript

open Text

/-- There is nothing in the text that lines are cut at. -/
def Text.IsUncut (text : Text) : Prop := ∀ c ∈ text, c ≠ ';' ∧ c ≠ '{' ∧ c ≠ '}'

/-! ### Comments -/

section Comments

variable {c : Char} {text : Text}

/-- Without a slash there is no comment. -/
theorem Comment.strip_of_not_mem (h : '/' ∉ text) : Comment.strip false text = ⟨text, false⟩ := by
  induction text with
  | nil => rfl
  | cons c text ih =>
    obtain ⟨hc, htext⟩ := List.ne_and_not_mem_of_not_mem_cons h
    rw [Comment.strip, ih htext]
    · rfl
    · exact fun _ heq _ => hc heq.symm
    · exact fun _ heq _ => hc heq.symm

/-- A character that belongs to no opener or closer stays at the end, or goes with a comment. -/
theorem Comment.strip_append_char (hslash : c ≠ '/') (hstar : c ≠ '*') (inside : Bool)
    (text : Text) :
    ∃ back, (back = [] ∨ back = [c]) ∧
      strip inside (text ++ [c]) =
        ⟨(strip inside text).text ++ back, (strip inside text).isOpen⟩ := by
  -- What follows a character in the longer line follows it in the line, unless it is `c`.
  have hnext {rest tail : Text} {e : Char} (hne : c ≠ e) (heq : rest ++ [c] = e :: tail) :
      ∃ tail, rest = e :: tail := by
    cases rest with
    | nil => exact absurd (List.cons.inj heq).1 hne
    | cons d rest =>
      obtain ⟨rfl, -⟩ := List.cons.inj heq
      exact ⟨rest, rfl⟩
  fun_induction strip inside text with
  | case1 rest ih =>
    obtain ⟨back, hback, hrest⟩ := ih
    exact ⟨back, hback, congrArg (Uncommented.cons ' ') hrest⟩
  | case2 d rest hclose ih =>
    obtain ⟨back, hback, hrest⟩ := ih
    refine ⟨back, hback, ?_⟩
    rw [List.cons_append, strip, hrest]
    intro tail hd heq
    obtain ⟨tail, rfl⟩ := hnext hslash heq
    exact hclose tail hd rfl
  | case3 =>
    have hcomment : strip true [c] = strip true [] :=
      strip.eq_2 c [] fun tail _ heq => absurd heq.symm (List.cons_ne_nil _ _)
    exact ⟨[], .inl rfl, hcomment⟩
  | case4 rest => exact ⟨[], .inl rfl, rfl⟩
  | case5 rest ih => exact ih
  | case6 d rest hline hblock ih =>
    obtain ⟨back, hback, hrest⟩ := ih
    refine ⟨back, hback, ?_⟩
    rw [List.cons_append, strip, hrest]
    · rfl
    · intro tail hd heq
      obtain ⟨tail, rfl⟩ := hnext hslash heq
      exact hline tail hd rfl
    · intro tail hd heq
      obtain ⟨tail, rfl⟩ := hnext hstar heq
      exact hblock tail hd rfl
  | case7 =>
    have hplain : strip false [c] = ⟨[c], false⟩ :=
      Comment.strip_of_not_mem fun hmem => hslash (List.mem_singleton.mp hmem).symm
    exact ⟨[c], .inr rfl, hplain⟩

end Comments

/-! ### Pieces -/

section Pieces

variable {text back : Text}

/-- A text that nothing cuts is one piece. -/
theorem cutStatementsAfter_of_isUncut (h : text.IsUncut) (held : Text) :
    cutStatementsAfter held text = tidyPiece (held.reverse ++ text) := by
  induction text generalizing held with
  | nil => rw [cutStatementsAfter, List.append_nil]
  | cons c text ih =>
    obtain ⟨⟨hsemicolon, hopening, hclosing⟩, htext⟩ := List.forall_mem_cons.mp h
    rw [cutStatementsAfter, if_neg hsemicolon, if_neg (not_or.mpr ⟨hopening, hclosing⟩), ih htext,
      List.reverse_cons, List.append_assoc, List.singleton_append]

/-- Blanks behind a piece change nothing. -/
theorem tidyPiece_append_of_blank (hback : ∀ c ∈ back, isBlank c = true) (piece : Text) :
    tidyPiece (piece ++ back) = tidyPiece piece := by
  rw [tidyPiece, tidyPiece, trim_append_of_blank hback]

/-- Blanks at the end of a line go with its last piece, which is trimmed. -/
theorem cutStatementsAfter_append_of_blank (hback : ∀ c ∈ back, isBlank c = true)
    (held text : Text) :
    cutStatementsAfter held (text ++ back) = cutStatementsAfter held text := by
  induction text generalizing held with
  | nil =>
    have huncut : back.IsUncut := by
      intro c hc
      have hblank := hback c hc
      refine ⟨?_, ?_, ?_⟩ <;> rintro rfl <;> cases hblank
    rw [List.nil_append, cutStatementsAfter_of_isUncut huncut, tidyPiece_append_of_blank hback,
      cutStatementsAfter]
  | cons c text ih => rw [List.cons_append, cutStatementsAfter, cutStatementsAfter, ih, ih]

end Pieces

/-! ### Lines -/

section Lines

variable {line line' : Text}

/-- The second line is the first, perhaps with a carriage return or a line feed behind it. -/
def EndsAlike (line line' : Text) : Prop :=
  ∃ back, (back = [] ∨ back = ['\r'] ∨ back = ['\n']) ∧ line' = line ++ back

theorem EndsAlike.refl (line : Text) : EndsAlike line line :=
  ⟨[], .inl rfl, (List.append_nil line).symm⟩

theorem EndsAlike.cons (c : Char) (h : EndsAlike line line') :
    EndsAlike (c :: line) (c :: line') := by
  obtain ⟨back, hback, rfl⟩ := h
  exact ⟨back, hback, rfl⟩

/-- A line has the same logical lines with a carriage return or a line feed behind it. -/
theorem cutStatements_strip_append_char {c : Char} (hc : c = '\r' ∨ c = '\n') (inside : Bool)
    (line : Text) :
    cutStatements (Comment.strip inside (normalizeLine (line ++ [c]))).text =
        cutStatements (Comment.strip inside (normalizeLine line)).text ∧
      (Comment.strip inside (normalizeLine (line ++ [c]))).isOpen =
        (Comment.strip inside (normalizeLine line)).isOpen := by
  obtain ⟨hself, hblank, hslash, hstar⟩ :
      normalizeLine [c] = [c] ∧ isBlank c = true ∧ c ≠ '/' ∧ c ≠ '*' := by
    rcases hc with rfl | rfl <;> decide
  have hline : normalizeLine (line ++ [c]) = normalizeLine line ++ [c] := by
    rw [normalizeLine, upper_append, List.map_append]
    exact congrArg (normalizeLine line ++ ·) hself
  obtain ⟨back, hback, hstrip⟩ :=
    Comment.strip_append_char hslash hstar inside (normalizeLine line)
  have hblanks : ∀ c ∈ back, isBlank c = true := by
    rcases hback with rfl | rfl
    · exact List.forall_mem_nil _
    · exact List.forall_mem_singleton.mpr hblank
  rw [hline, hstrip]
  exact ⟨cutStatementsAfter_append_of_blank hblanks [] _, rfl⟩

/-- The ends of physical lines change no logical line. -/
theorem logicalLinesFrom_of_endsAlike {lines lines' : List Text}
    (h : List.Forall₂ EndsAlike lines lines') (number : Nat) (inside : Bool) :
    logicalLinesFrom number inside lines' = logicalLinesFrom number inside lines := by
  induction h generalizing number inside with
  | nil => rfl
  | @cons line line' _ _ hline _ ih =>
    have hsame : cutStatements (Comment.strip inside (normalizeLine line')).text =
          cutStatements (Comment.strip inside (normalizeLine line)).text ∧
        (Comment.strip inside (normalizeLine line')).isOpen =
          (Comment.strip inside (normalizeLine line)).isOpen := by
      obtain ⟨back, rfl | rfl | rfl, rfl⟩ := hline
      · rw [List.append_nil]
        exact ⟨rfl, rfl⟩
      · exact cutStatements_strip_append_char (.inl rfl) inside line
      · exact cutStatements_strip_append_char (.inr rfl) inside line
    rw [logicalLinesFrom, logicalLinesFrom, hsame.1, hsame.2, ih]

end Lines

end SignalScript
