import Mathlib.Data.List.Chain
import Mathlib.Data.List.DropRight
import SignalScript.Proofs.Source.Scanner

/-!
# The shape of logical lines

A logical line begins and ends with something that is not blank. A brace stands on a line of its
own, and a semicolon stands at the end of its line if at all. Two lines from one physical line meet
where the physical line was cut: behind a semicolon or at a brace.

## Main definitions

* `Text.IsLine` — the shape of the text of a logical line
* `LogicalLine.Follows` — how a logical line stands behind the one before it

## Main results

* `isLine_of_mem_logicalLines` — the lines of every file have that shape
* `isChain_logicalLines` — and they follow one another in that way
-/

namespace SignalScript

namespace Text

/-- The text is a brace and nothing else. -/
def IsBrace (text : Text) : Prop := text = ['{'] ∨ text = ['}']

/-- The shape of a logical line: no blanks at its ends, a brace only alone, and a semicolon only at
its end. -/
structure IsLine (text : Text) : Prop where
  tight : text.IsTight
  brace : text.IsBrace ∨ ∀ c ∈ text, c ≠ '{' ∧ c ≠ '}'
  semicolon : ∃ front : Text, ';' ∉ front ∧ (text = front ∨ text = front ++ [';'])

/-- A brace stands alone on its line. -/
theorem isLine_brace {c : Char} (h : c = '{' ∨ c = '}') : IsLine [c] where
  tight := by rcases h with rfl | rfl <;> decide
  brace := .inl (by rcases h with rfl | rfl <;> simp [IsBrace])
  semicolon := ⟨[c], by rcases h with rfl | rfl <;> decide, .inl rfl⟩

namespace IsUncut

variable {text text' : Text}

theorem subset (h : IsUncut text) (hsub : text' ⊆ text) : IsUncut text' :=
  fun c hc => h c (hsub hc)

theorem not_mem_semicolon (h : IsUncut text) : ';' ∉ text := fun hmem => (h _ hmem).1 rfl

/-- A text that nothing cuts, without blanks at its ends, is a line. -/
theorem isLine (h : IsUncut text) (htight : text.IsTight) : IsLine text where
  tight := htight
  brace := .inr fun c hc => (h c hc).2
  semicolon := ⟨text, h.not_mem_semicolon, .inl rfl⟩

/-- So is one that ends with its only semicolon. -/
theorem isLine_semicolon (h : IsUncut text) (htight : (text ++ [';']).IsTight) :
    IsLine (text ++ [';']) where
  tight := htight
  brace := .inr (List.forall_mem_append.mpr
    ⟨fun c hc => (h c hc).2, List.forall_mem_singleton.mpr (by decide)⟩)
  semicolon := ⟨text, h.not_mem_semicolon, .inr rfl⟩

end IsUncut

/-- The only parts of a brace are the brace and nothing. -/
theorem IsBrace.eq_of_suffix {text behind : Text} (h : IsBrace text) (hsuffix : behind <:+ text)
    (hne : behind ≠ []) : behind = text := by
  obtain ⟨front, rfl⟩ := hsuffix
  have hlength : (front ++ behind).length = 1 := by rcases h with h | h <;> rw [h] <;> rfl
  have hbehind := List.length_pos_iff.mpr hne
  rw [List.length_append] at hlength
  rw [List.length_eq_zero_iff.mp (by omega : front.length = 0), List.nil_append]

/-- What is left of a line is a line again. -/
theorem IsLine.of_suffix {text behind : Text} (h : IsLine text) (hsuffix : behind <:+ text)
    (htight : behind.IsTight) : IsLine behind where
  tight := htight
  brace := by
    rcases h.brace with hbrace | hplain
    · rw [hbrace.eq_of_suffix hsuffix htight.ne_nil]
      exact .inl hbrace
    · exact .inr fun c hc => hplain c (hsuffix.subset hc)
  semicolon := by
    obtain ⟨front, hfront, rfl | rfl⟩ := h.semicolon
    · exact ⟨behind, fun hmem => hfront (hsuffix.subset hmem), .inl rfl⟩
    · rcases List.suffix_concat_iff.mp hsuffix with rfl | ⟨part, rfl, hpart⟩
      · exact absurd rfl htight.ne_nil
      · exact ⟨part, fun hmem => hfront (hpart.subset hmem), .inr rfl⟩

end Text

/-- How a logical line stands behind another: on a later physical line, or on the same one, which
was cut between the two behind a semicolon or at a brace. -/
def LogicalLine.Follows (line next : LogicalLine) : Prop :=
  line.number < next.number ∨ line.number = next.number ∧
    (line.text.getLast? = some ';' ∨ line.text.IsBrace ∨ next.text.IsBrace)

/-! ### Tidying -/

section Tidying

open Text

theorem head?_spaceIf (text : Text) : (spaceIf text).head? = text.head? := by
  fun_cases spaceIf text <;> rfl

theorem spaceIf_append_semicolon (text : Text) :
    spaceIf (text ++ [';']) = spaceIf text ++ [';'] := by
  fun_induction spaceIf text with
  | case1 rest ih => simp only [List.cons_append, spaceIf, ih]
  | case2 c rest hother ih =>
    rw [List.cons_append, spaceIf, ih, List.cons_append]
    rintro behind rfl hbehind
    match rest, hbehind with
    | d :: e :: rest, hbehind =>
      simp only [List.cons_append, List.cons.injEq] at hbehind
      obtain ⟨rfl, rfl, -⟩ := hbehind
      exact hother rest rfl rfl
  | case3 => rfl

theorem getLast?_spaceIf (text : Text) : (spaceIf text).getLast? = text.getLast? := by
  fun_induction spaceIf text with
  | case1 rest ih => simp only [List.getLast?_cons, ih, Option.getD_some]
  | case2 c rest _ ih => rw [List.getLast?_cons, List.getLast?_cons, ih]
  | case3 => rfl

theorem isTight_spaceIf {text : Text} (h : text.IsTight) : (spaceIf text).IsTight := by
  rw [isTight_iff, head?_spaceIf, getLast?_spaceIf]
  exact isTight_iff.mp h

theorem isUncut_spaceIf {text : Text} (h : text.IsUncut) : (spaceIf text).IsUncut := by
  intro c hc
  by_cases hblank : isBlank c = true
  · have hne (d : Char) (hd : isBlank d = false) : c ≠ d := by
      rintro rfl
      cases hblank.symm.trans hd
    exact ⟨hne _ rfl, hne _ rfl, hne _ rfl⟩
  · have hfiltered : c ∈ withoutBlanks (spaceIf text) :=
      List.mem_filter.mpr ⟨hc, by simpa using hblank⟩
    rw [withoutBlanks_spaceIf] at hfiltered
    exact h c (List.mem_of_mem_filter hfiltered)

theorem isLine_of_mem_tidyPiece {piece line : Text} (h : piece.IsUncut)
    (hline : line ∈ tidyPiece piece) : line.IsLine := by
  rw [tidyPiece] at hline
  split at hline
  · cases hline
  · rename_i hne
    obtain rfl := List.mem_singleton.mp hline
    have htight : (trim piece).IsTight := ⟨by simpa using hne, trim_trim piece⟩
    have huncut : (trim piece).IsUncut := h.subset (trim_sublist piece).subset
    exact (isUncut_spaceIf huncut).isLine (isTight_spaceIf htight)

theorem trim_append_semicolon (piece : Text) :
    trim (piece ++ [';']) = trimStart piece ++ [';'] := by
  have hstart : trimStart (piece ++ [';']) = trimStart piece ++ [';'] := by
    rw [trimStart, List.dropWhile_append]
    split
    · rename_i hblank
      rw [trimStart, List.isEmpty_iff.mp hblank]
      rfl
    · rfl
  rw [trim, hstart, trimEnd_eq_rdropWhile]
  exact List.rdropWhile_concat_neg _ _ _ (by decide)

/-- A piece that ends with a semicolon is never blank. -/
theorem tidyPiece_semicolon (piece : Text) :
    tidyPiece (piece ++ [';']) = [spaceIf (trimStart piece) ++ [';']] := by
  rw [tidyPiece, trim_append_semicolon, if_neg (by simp), spaceIf_append_semicolon]

theorem isLine_tidyPiece_semicolon {piece : Text} (h : piece.IsUncut) :
    (spaceIf (trimStart piece) ++ [';']).IsLine := by
  have huncut : (trimStart piece).IsUncut := h.subset (List.dropWhile_sublist _).subset
  have htight : (trimStart piece ++ [';']).IsTight := by
    rw [← trim_append_semicolon]
    exact ⟨by simp [trim_append_semicolon], trim_trim _⟩
  refine (isUncut_spaceIf huncut).isLine_semicolon ?_
  rw [← spaceIf_append_semicolon]
  exact isTight_spaceIf htight

end Tidying

/-! ### Cutting -/

section Cutting

open Text

variable {held text : Text}

theorem isUncut_reverse (h : held.IsUncut) : IsUncut held.reverse :=
  h.subset (List.reverse_perm held).subset

/-- Whatever is held, all that is cut out of a text are lines. -/
theorem isLine_of_mem_cutStatementsAfter (h : held.IsUncut) :
    ∀ line ∈ cutStatementsAfter held text, line.IsLine := by
  induction text generalizing held with
  | nil => exact fun line => isLine_of_mem_tidyPiece (isUncut_reverse h)
  | cons c rest ih =>
    have hnil : IsUncut [] := fun _ hc => absurd hc List.not_mem_nil
    rw [cutStatementsAfter]
    split
    · rename_i hc
      rw [hc, List.reverse_cons, tidyPiece_semicolon]
      exact List.forall_mem_cons.mpr
        ⟨isLine_tidyPiece_semicolon (isUncut_reverse h), ih hnil⟩
    · rename_i hc
      split
      · rename_i hbrace
        exact List.forall_mem_append.mpr
          ⟨fun line => isLine_of_mem_tidyPiece (isUncut_reverse h),
            List.forall_mem_cons.mpr ⟨isLine_brace hbrace, ih hnil⟩⟩
      · rename_i hbrace
        rw [not_or] at hbrace
        exact ih (List.forall_mem_cons.mpr ⟨⟨hc, hbrace⟩, h⟩)

theorem isLine_of_mem_cutStatements : ∀ line ∈ cutStatements text, line.IsLine :=
  isLine_of_mem_cutStatementsAfter fun _ hc => absurd hc List.not_mem_nil

/-- Where one line ends and the next begins, the text was cut. -/
theorem isChain_cutStatementsAfter (held text : Text) :
    (cutStatementsAfter held text).IsChain fun line next =>
      line.getLast? = some ';' ∨ line.IsBrace ∨ next.IsBrace := by
  have hpiece (piece : Text) : (tidyPiece piece).IsChain fun line next =>
      line.getLast? = some ';' ∨ line.IsBrace ∨ next.IsBrace := by
    rw [tidyPiece]
    split
    · exact .nil
    · exact .singleton _
  induction text generalizing held with
  | nil => exact hpiece _
  | cons c rest ih =>
    rw [cutStatementsAfter]
    split
    · rename_i hc
      rw [hc, List.reverse_cons, tidyPiece_semicolon]
      exact List.isChain_cons.mpr ⟨fun _ _ => .inl List.getLast?_concat, ih []⟩
    · split
      · rename_i hbrace
        have hline : IsBrace [c] := by rcases hbrace with rfl | rfl <;> simp [IsBrace]
        refine List.isChain_append.mpr ⟨hpiece _,
          List.isChain_cons.mpr ⟨fun _ _ => .inr (.inl hline), ih []⟩, fun _ _ next hnext => ?_⟩
        obtain rfl := Option.some.inj hnext
        exact .inr (.inr hline)
      · exact ih _

end Cutting

/-! ### Files -/

section Files

variable {number : Nat} {inside : Bool} {lines : List Text}

theorem le_number_of_mem_logicalLinesFrom :
    ∀ line ∈ logicalLinesFrom number inside lines, number ≤ line.number := by
  induction lines generalizing number inside with
  | nil => exact List.forall_mem_nil _
  | cons line rest ih =>
    rw [logicalLinesFrom, List.forall_mem_append]
    refine ⟨fun line hline => ?_, fun line hline => Nat.le_of_succ_le (ih line hline)⟩
    obtain ⟨text, -, rfl⟩ := List.mem_map.mp hline
    exact Nat.le_refl number

/-- What holds of the pieces of every physical line holds of the logical lines. -/
theorem forall_mem_logicalLinesFrom {P : Text → Prop}
    (h : ∀ line ∈ lines, ∀ inside,
      ∀ piece ∈ cutStatements (Comment.strip inside (normalizeLine line)).text, P piece)
    (number : Nat) (inside : Bool) :
    ∀ line ∈ logicalLinesFrom number inside lines, P line.text := by
  induction lines generalizing number inside with
  | nil => exact List.forall_mem_nil _
  | cons line rest ih =>
    obtain ⟨hline, hrest⟩ := List.forall_mem_cons.mp h
    rw [logicalLinesFrom, List.forall_mem_append, List.forall_mem_map]
    exact ⟨hline inside, ih hrest _ _⟩

/-- Each logical line follows the one before it as it may. -/
theorem isChain_logicalLinesFrom :
    (logicalLinesFrom number inside lines).IsChain LogicalLine.Follows := by
  induction lines generalizing number inside with
  | nil => exact .nil
  | cons line rest ih =>
    rw [logicalLinesFrom]
    refine List.isChain_append.mpr ⟨?_, ih, fun last hlast next hnext => ?_⟩
    · exact (List.isChain_map _).mpr
        ((isChain_cutStatementsAfter _ _).imp fun _ _ hcut => .inr ⟨rfl, hcut⟩)
    · obtain ⟨text, -, rfl⟩ := List.mem_map.mp (List.mem_of_mem_getLast? hlast)
      exact .inl (le_number_of_mem_logicalLinesFrom next (List.mem_of_mem_head? hnext))

/-- The lines of a file have no blanks at their ends, braces stand alone and semicolons last. -/
theorem isLine_of_mem_logicalLines {bytes : List UInt8} :
    ∀ line ∈ logicalLines bytes, line.text.IsLine :=
  forall_mem_logicalLinesFrom (fun _ _ _ => isLine_of_mem_cutStatements) 1 false

/-- The numbers of the lines never decrease, and lines with one number were cut apart behind a
semicolon or at a brace. -/
theorem isChain_logicalLines (bytes : List UInt8) :
    (logicalLines bytes).IsChain LogicalLine.Follows :=
  isChain_logicalLinesFrom

end Files

end SignalScript
