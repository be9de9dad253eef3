import SignalScript.Proofs.Source.LineEnd
import SignalScript.Proofs.Source.Utf16Encoding
import SignalScript.Proofs.Source.Utf8Lines
import SignalScript.Proofs.Text.Cutting

/-!
# The text of a file as a whole

A file is cut behind its line feeds before it is decoded, line by line. Decoding it as a whole and
cutting its text afterwards gives the same lines: whatever is malformed in front of a line feed, no
sequence of bytes and no pair of units reaches across it.

## Main definitions

* `sourceText` — the text of a file
* `physicalLines` — the lines of a text, without the line feeds between them

## Main results

* `map_cutBehind` — when it makes no difference whether a list is cut before it is decoded
* `sourceLines_eq_cutBehind` — the lines of a file are the lines of its text
* `logicalLines_eq` — the logical lines of a file are those of its text
-/

namespace SignalScript

/-- The text stored in bytes of a given encoding. -/
def Encoding.decode : Encoding → List UInt8 → Text
  | .utf8, bytes => Utf8.decodeLossy bytes
  | .utf16 order, bytes => Utf16.decodeLossy (Utf16.units order bytes)

/-- The text of a script file. -/
def sourceText (bytes : List UInt8) : Text :=
  let (encoding, stored) := Encoding.ofBytes bytes
  encoding.decode stored

/-- The lines of a text, without the line feeds between them. -/
def physicalLines (text : Text) : List Text := Text.pieces '\n' text

/-! ### Cutting lists -/

section Cutting

variable {α β : Type} [DecidableEq α] [DecidableEq β] {mark : α} {list front : List α}

/-- What has no mark in it is one part. -/
theorem cutBehind_of_notMem (hne : list ≠ []) (h : mark ∉ list) :
    cutBehind mark list = [list] := by
  induction list with
  | nil => exact absurd rfl hne
  | cons a rest ih =>
    obtain ⟨ha, hrest⟩ := List.ne_and_not_mem_of_not_mem_cons h
    rw [cutBehind, if_neg (Ne.symm ha)]
    by_cases hnil : rest = []
    · rw [hnil]
      rfl
    · rw [ih hnil hrest]

/-- The first part reaches up to the first mark. -/
theorem cutBehind_append_cons (h : mark ∉ front) (back : List α) :
    cutBehind mark (front ++ mark :: back) = (front ++ [mark]) :: cutBehind mark back := by
  induction front with
  | nil => rw [List.nil_append, List.nil_append, cutBehind, if_pos rfl]
  | cons a front ih =>
    obtain ⟨ha, hfront⟩ := List.ne_and_not_mem_of_not_mem_cons h
    rw [List.cons_append, cutBehind, if_neg (Ne.symm ha), ih hfront]
    rfl

/-- A list may be cut before it is decoded or after, if decoding makes the marks of the result from
the marks of the list and goes on behind each of them as if nothing stood in front. -/
theorem map_cutBehind {mark' : β} {decode : List α → List β} (hnil : decode [] = [])
    (hpart : ∀ part, part ≠ [] → mark ∉ part → decode part ≠ [] ∧ mark' ∉ decode part)
    (hcut : ∀ front, mark ∉ front → ∃ text, mark' ∉ text ∧
      ∀ back, decode (front ++ mark :: back) = text ++ mark' :: decode back)
    (list : List α) : (cutBehind mark list).map decode = cutBehind mark' (decode list) := by
  by_cases hmem : mark ∈ list
  · -- The induction goes from one mark to the next.
    obtain ⟨front, back, hlist, hfront⟩ := List.eq_append_cons_of_mem hmem
    obtain ⟨text, htext, hdecode⟩ := hcut front hfront
    have hfirst : decode (front ++ [mark]) = text ++ [mark'] := by rw [hdecode, hnil]
    rw [hlist, cutBehind_append_cons hfront, List.map_cons, hfirst,
      map_cutBehind hnil hpart hcut back, hdecode, cutBehind_append_cons htext]
  · by_cases hempty : list = []
    · rw [hempty, hnil]
      rfl
    · obtain ⟨hne, hfree⟩ := hpart list hempty hmem
      rw [cutBehind_of_notMem hempty hmem, cutBehind_of_notMem hne hfree, List.map_singleton]
termination_by list.length
decreasing_by
  rw [hlist, List.length_append, List.length_cons]
  omega

end Cutting

/-! ### Decoding line by line -/

section Decoding

namespace Utf8

/-- Bytes in UTF-8 may be cut into lines before they are decoded. -/
theorem map_decodeLossy_cutBehind (bytes : List UInt8) :
    (cutBehind 10 bytes).map decodeLossy = cutBehind '\n' (decodeLossy bytes) := by
  have hfree {part : List UInt8} (h : 10 ∉ part) : '\n' ∉ decodeLossy part := by
    rw [← List.count_eq_zero, count_decodeLossy, List.count_eq_zero]
    exact h
  refine map_cutBehind rfl (fun part hne h => ⟨decodeLossy_ne_nil hne, hfree h⟩) ?_ bytes
  intro front hfront
  obtain ⟨text, htext⟩ := exists_decodeLossy_append front
  refine ⟨text, ?_, htext⟩
  -- The text up to the line feed has as many line feeds as its bytes.
  have hcount := count_decodeLossy (front ++ [10])
  rw [htext, List.count_append, List.count_append, List.count_eq_zero.mpr hfront] at hcount
  rw [← List.count_eq_zero]
  exact Nat.add_right_cancel hcount

end Utf8

namespace Utf16

theorem lineFeed_ne_single {unit : Nat} (h : unit ≠ 10) : '\n' ≠ single unit := by
  rw [single]
  split
  · decide
  · exact fun hfeed => h (Text.eq_ten_of_ofNat hfeed.symm)

theorem lineFeed_ne_pair (high low : Nat) : '\n' ≠ pair high low := by
  intro hfeed
  have := Text.eq_ten_of_ofNat hfeed.symm
  omega

/-- No other unit and no pair of units is decoded to a line feed. -/
theorem lineFeed_notMem_decodeLossy {units : List Nat} (h : 10 ∉ units) :
    '\n' ∉ decodeLossy units := by
  fun_induction decodeLossy units with
  | case1 => exact List.not_mem_nil
  | case2 unit =>
    rw [List.mem_singleton]
    exact lineFeed_ne_single fun heq => h (heq ▸ List.mem_singleton_self _)
  | case3 unit next rest _ ih =>
    rw [List.mem_cons, not_or]
    exact ⟨lineFeed_ne_pair unit next,
      ih fun hmem => h (List.mem_cons_of_mem _ (List.mem_cons_of_mem _ hmem))⟩
  | case4 unit next rest _ ih =>
    obtain ⟨hunit, hrest⟩ := List.ne_and_not_mem_of_not_mem_cons h
    rw [List.mem_cons, not_or]
    exact ⟨lineFeed_ne_single (Ne.symm hunit), ih hrest⟩

/-- A line feed is no surrogate, so units are paired on either side of it. -/
theorem decodeLossy_append_lineFeed (front back : List Nat) :
    decodeLossy (front ++ 10 :: back) = decodeLossy front ++ '\n' :: decodeLossy back := by
  have hfeed : decodeLossy (10 :: back) = '\n' :: decodeLossy back := decodeLossy_single rfl back
  fun_induction decodeLossy front with
  | case1 => exact hfeed
  | case2 unit =>
    have hlow : isLowSurrogate 10 = false := rfl
    rw [List.singleton_append, decodeLossy, hlow, Bool.and_false, if_neg Bool.false_ne_true, hfeed]
    rfl
  | case3 unit next rest hpair ih =>
    rw [List.cons_append, List.cons_append, decodeLossy, if_pos hpair, ih]
    rfl
  | case4 unit next rest hpair ih =>
    rw [List.cons_append, List.cons_append, decodeLossy, if_neg hpair]
    exact congrArg (single unit :: ·) ih

theorem decodeLossy_ne_nil {units : List Nat} (h : units ≠ []) : decodeLossy units ≠ [] := by
  fun_cases decodeLossy units with
  | case1 => exact absurd rfl h
  | _ => exact List.cons_ne_nil _ _

/-- Units of UTF-16 may be cut into lines before they are decoded. -/
theorem map_decodeLossy_cutBehind (units : List Nat) :
    (cutBehind 10 units).map decodeLossy = cutBehind '\n' (decodeLossy units) :=
  map_cutBehind rfl
    (fun _ hne h => ⟨decodeLossy_ne_nil hne, lineFeed_notMem_decodeLossy h⟩)
    (fun front hfront =>
      ⟨decodeLossy front, lineFeed_notMem_decodeLossy hfront, decodeLossy_append_lineFeed front⟩)
    units

end Utf16

/-- The lines of a file are the lines of its text. -/
theorem sourceLines_eq_cutBehind (bytes : List UInt8) :
    sourceLines bytes = cutBehind '\n' (sourceText bytes) := by
  rw [sourceLines, sourceText]
  obtain ⟨encoding, stored⟩ := Encoding.ofBytes bytes
  cases encoding with
  | utf8 => exact Utf8.map_decodeLossy_cutBehind stored
  | utf16 order => exact Utf16.map_decodeLossy_cutBehind (Utf16.units order stored)

end Decoding

/-! ### Logical lines -/

section Lines

/-- The lines of a text with their line feeds are those without, but that behind the last line feed
there is no line. -/
theorem exists_endsAlike_cutBehind (text : Text) :
    ∃ last, (last = [] ∨ last = [[]]) ∧
      List.Forall₂ EndsAlike (physicalLines text) (cutBehind '\n' text ++ last) := by
  induction text with
  | nil => exact ⟨[[]], .inr rfl, .cons (.refl []) .nil⟩
  | cons c text ih =>
    obtain ⟨last, hlast, hlines⟩ := ih
    rw [physicalLines, Text.pieces, cutBehind]
    by_cases hc : c = '\n'
    · rw [if_pos hc, if_pos hc, hc]
      exact ⟨last, hlast, .cons ⟨['\n'], .inr (.inr rfl), rfl⟩ hlines⟩
    · rw [if_neg hc, if_neg hc]
      -- The character goes to the first line on both sides, which may be the last one.
      cases hpieces : Text.pieces '\n' text with
      | nil => exact absurd hpieces (Text.pieces_ne_nil _ _)
      | cons line lines =>
        rw [physicalLines, hpieces] at hlines
        cases hparts : cutBehind '\n' text with
        | nil =>
          rw [hparts, List.nil_append] at hlines
          rcases hlast with rfl | rfl
          · cases hlines
          · obtain ⟨hline, hlater⟩ := List.forall₂_cons.mp hlines
            exact ⟨[], .inl rfl, .cons (hline.cons c) hlater⟩
        | cons part parts =>
          rw [hparts, List.cons_append] at hlines
          obtain ⟨hline, hlater⟩ := List.forall₂_cons.mp hlines
          exact ⟨last, hlast, .cons (hline.cons c) hlater⟩

theorem logicalLinesFrom_append_nil (number : Nat) (inside : Bool) (lines : List Text) :
    logicalLinesFrom number inside (lines ++ [[]]) = logicalLinesFrom number inside lines := by
  induction lines generalizing number inside with
  | nil => cases inside <;> rfl
  | cons line lines ih => rw [List.cons_append, logicalLinesFrom, logicalLinesFrom, ih]

/-- The logical lines of a file are those of its text. -/
theorem logicalLines_eq (bytes : List UInt8) :
    logicalLines bytes = logicalLinesFrom 1 false (physicalLines (sourceText bytes)) := by
  obtain ⟨last, hlast, hlines⟩ := exists_endsAlike_cutBehind (sourceText bytes)
  rw [logicalLines, sourceLines_eq_cutBehind, ← logicalLinesFrom_of_endsAlike hlines]
  rcases hlast with rfl | rfl
  · rw [List.append_nil]
  · rw [logicalLinesFrom_append_nil]

end Lines

end SignalScript
