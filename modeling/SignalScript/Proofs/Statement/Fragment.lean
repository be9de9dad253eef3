import SignalScript.Proofs.Run.Trace
import SignalScript.Proofs.Source.LineShape
import SignalScript.Proofs.Statement.Structuring

/-!
# Fragments of a body

The readers of a body take it apart into fragments, one behind another: statements, heads of arms,
an `ELSE`, a brace. A fragment goes under the number of one line, though it may stand on several.
The number is that of the line the fragment begins on, with one exception. What stands behind a head
or an `ELSE` on its last line is put back under the number of that head, which is the number of its
first line.

## Main definitions

* `Fragment` — a part of a body with its characters where they stand
* `Fragment.IsDue`, `Attributed` — the number that a fragment goes under
* `inHand` — lines as they lie before the readers when the fragment in front of them was taken
* `Layout` — fragments that were taken from lines one behind another

## Main results

* `Attributed.isExact` — if no head is broken, every fragment goes under the line it begins on
* `Layout.append` — layouts are put together
-/

namespace SignalScript

/-- What a fragment is read as. -/
inductive Role
  | sentence
  /-- An `IF` or `ELSEIF` with its condition. -/
  | head
  /-- An `ELSE` without what stands behind it. -/
  | otherwise
  | brace
  /-- A line with an `ELSE` that belongs to no arm. -/
  | stray
  deriving DecidableEq, Repr

/-- A part of a body that is taken at once: its text, the number it goes under, and its characters
where they stand, without blanks. -/
structure Fragment where
  role : Role
  text : Text
  number : Nat
  placed : List PlacedChar
  spells : placed.map Prod.fst = text.withoutBlanks
  ne_nil : placed ≠ []

namespace Fragment

/-- The line of the first character. -/
def begins (fragment : Fragment) : Nat := (fragment.placed.head fragment.ne_nil).2

/-- The line of the last character. -/
def ends (fragment : Fragment) : Nat := (fragment.placed.getLast fragment.ne_nil).2

/-- The fragment goes under the line it begins on. -/
def IsExact (fragment : Fragment) : Prop := fragment.number = fragment.begins

/-- Text behind the fragment is put back under its number. -/
def Carries (fragment : Fragment) : Prop := fragment.role = .head ∨ fragment.role = .otherwise

instance (fragment : Fragment) : Decidable fragment.Carries :=
  inferInstanceAs (Decidable (_ ∨ _))

/-- The points of the script that the fragment spells. -/
def points (locals : List Text) (fragment : Fragment) : List Point :=
  match fragment.role with
  | .sentence =>
    (Assignment.read locals fragment.number fragment.text).value.toList.map .assign
  | .head => [.guard (Condition.read locals fragment.text).value]
  | .otherwise | .brace | .stray => []

/-- The number that text on a line goes under behind a fragment. -/
def numberBehind (before : Option Fragment) (number : Nat) : Nat :=
  match before with
  | none => number
  | some fragment =>
    if fragment.Carries ∧ fragment.ends = number then fragment.number else number

/-- The fragment goes under the line it begins on, unless it begins on the last line of a head or
`ELSE` right before it; then it goes under the number of these. Braces are never put back. -/
def IsDue (before : Option Fragment) (fragment : Fragment) : Prop :=
  fragment.number =
    if fragment.role = .brace then fragment.begins else numberBehind before fragment.begins

theorem numberBehind_of_not_carries {before : Option Fragment}
    (h : ∀ fragment ∈ before, ¬ fragment.Carries) (number : Nat) :
    numberBehind before number = number := by
  cases before with
  | none => rfl
  | some fragment => exact if_neg fun hcarries => h fragment rfl hcarries.1

theorem numberBehind_of_ends {fragment : Fragment} {number : Nat} (h : fragment.Carries)
    (hends : fragment.ends = number) : numberBehind (some fragment) number = fragment.number :=
  if_pos ⟨h, hends⟩

theorem numberBehind_of_ends_ne {fragment : Fragment} {number : Nat}
    (hends : fragment.ends ≠ number) : numberBehind (some fragment) number = number :=
  if_neg fun h => hends h.2

end Fragment

/-! ### Attribution -/

/-- Every fragment goes under the number that is due behind the one before it. -/
def Attributed (before : Option Fragment) : List Fragment → Prop
  | [] => True
  | fragment :: later => fragment.IsDue before ∧ Attributed (some fragment) later

/-- The last of the fragments, or the one before them all. -/
def lastOf (before : Option Fragment) : List Fragment → Option Fragment
  | [] => before
  | fragment :: later => lastOf (some fragment) later

section Attribution

variable {before : Option Fragment} {fragments front back : List Fragment}

theorem lastOf_append : lastOf before (front ++ back) = lastOf (lastOf before front) back := by
  induction front generalizing before with
  | nil => rfl
  | cons fragment front ih => exact ih

theorem attributed_append :
    Attributed before (front ++ back) ↔
      Attributed before front ∧ Attributed (lastOf before front) back := by
  induction front generalizing before with
  | nil => exact ⟨fun h => ⟨trivial, h⟩, fun h => h.2⟩
  | cons fragment front ih =>
    rw [List.cons_append, Attributed, Attributed, ih, lastOf, and_assoc]

/-- Where every head and `ELSE` stands on one line, all fragments go under the line they begin
on. -/
theorem Attributed.isExact (h : Attributed before fragments)
    (hbefore : ∀ fragment ∈ before, fragment.Carries → fragment.number = fragment.ends)
    (hlines : ∀ fragment ∈ fragments, fragment.Carries → fragment.begins = fragment.ends) :
    ∀ fragment ∈ fragments, fragment.IsExact := by
  induction fragments generalizing before with
  | nil => exact List.forall_mem_nil _
  | cons fragment later ih =>
    obtain ⟨hdue, hlater⟩ := h
    obtain ⟨hline, hlines⟩ := List.forall_mem_cons.mp hlines
    have hnumber : Fragment.numberBehind before fragment.begins = fragment.begins := by
      cases before with
      | none => rfl
      | some front =>
        rw [Fragment.numberBehind, ite_eq_right_iff]
        exact fun ⟨hcarries, hends⟩ => (hbefore front rfl hcarries).trans hends
    have hexact : fragment.IsExact := by
      rw [Fragment.IsDue, hnumber, ite_self] at hdue
      exact hdue
    refine List.forall_mem_cons.mpr ⟨hexact, ih hlater (fun front hfront hcarries => ?_) hlines⟩
    obtain rfl := Option.some.inj hfront
    exact hexact.trans (hline hcarries)

end Attribution

/-! ### Lines in hand -/

/-- Lines of a file, the first of which may have lost its beginning. -/
structure IsBody (lines : List LogicalLine) : Prop where
  isLine : ∀ line ∈ lines, line.text.IsLine
  follows : lines.IsChain LogicalLine.Follows

namespace IsBody

variable {first : LogicalLine} {lines front : List LogicalLine} {text : Text}

theorem nil : IsBody [] := ⟨List.forall_mem_nil _, .nil⟩

theorem of_infix (h : IsBody lines) (hpart : front <:+: lines) : IsBody front :=
  ⟨fun line hline => h.isLine line (hpart.subset hline), h.follows.infix hpart⟩

theorem tail (h : IsBody (first :: lines)) : IsBody lines :=
  h.of_infix (List.suffix_cons first lines).isInfix

theorem head_isLine (h : IsBody (first :: lines)) : first.text.IsLine :=
  h.isLine first List.mem_cons_self

/-- What is left of the first line still stands in front of the others. -/
theorem of_suffix (h : IsBody (first :: lines)) (hsuffix : text <:+ first.text)
    (htight : text.IsTight) : IsBody (⟨text, first.number⟩ :: lines) := by
  have hline := h.head_isLine
  refine ⟨List.forall_mem_cons.mpr ⟨hline.of_suffix hsuffix htight, h.tail.isLine⟩, ?_⟩
  obtain ⟨hnext, hlater⟩ := List.isChain_cons.mp h.follows
  refine List.isChain_cons.mpr ⟨fun next hmem => ?_, hlater⟩
  rcases hnext next hmem with hlt | ⟨heq, hsemicolon | hbrace | hbrace⟩
  · exact .inl hlt
  · obtain ⟨front, hfront⟩ := hsuffix
    rw [← hfront, List.getLast?_append_of_ne_nil _ htight.ne_nil] at hsemicolon
    exact .inr ⟨heq, .inl hsemicolon⟩
  · rw [← hbrace.eq_of_suffix hsuffix htight.ne_nil] at hbrace
    exact .inr ⟨heq, .inr (.inl hbrace)⟩
  · exact .inr ⟨heq, .inr (.inr hbrace)⟩

end IsBody

/-- The line behind a fragment, under the number it goes by. -/
def LogicalLine.behind (before : Option Fragment) (line : LogicalLine) : LogicalLine :=
  ⟨line.text,
    if startsWithBrace line.text then line.number else Fragment.numberBehind before line.number⟩

/-- The lines behind a fragment as they lie before the readers. -/
def inHand (before : Option Fragment) : List LogicalLine → List LogicalLine
  | [] => []
  | first :: lines => first.behind before :: lines

section InHand

variable {before : Option Fragment} {line : LogicalLine} {lines : List LogicalLine}
  {fragment : Fragment}

theorem LogicalLine.behind_of_brace (h : startsWithBrace line.text = true) :
    line.behind before = line := by
  rw [behind, if_pos h]

theorem LogicalLine.number_behind (h : startsWithBrace line.text = false) :
    (line.behind before).number = Fragment.numberBehind before line.number :=
  if_neg (Bool.eq_false_iff.mp h)

theorem isBrace_of_startsWithBrace {text : Text} (hline : text.IsLine)
    (h : startsWithBrace text = true) : text.IsBrace :=
  hline.brace.resolve_right fun hplain =>
    Bool.eq_false_iff.mp (startsWithBrace_eq_false hplain) h

theorem startsWithBrace_of_isBrace {text : Text} (h : text.IsBrace) :
    startsWithBrace text = true := by
  rcases h with rfl | rfl <;> rfl

@[simp] theorem inHand_nil : inHand before [] = [] := rfl

@[simp] theorem weight_inHand : weight (inHand before lines) = weight lines := by
  cases lines <;> rfl

/-- Behind a statement or brace the lines keep their numbers. -/
theorem inHand_of_not_carries (h : ∀ fragment ∈ before, ¬ fragment.Carries) :
    inHand before lines = lines := by
  cases lines with
  | nil => rfl
  | cons first lines =>
    rw [inHand, LogicalLine.behind, Fragment.numberBehind_of_not_carries h, ite_self]

/-- So they do behind a head that ends with its line. -/
theorem inHand_of_follows (hfollows : ∀ next ∈ lines.head?, line.Follows next)
    (hends : fragment.ends = line.number) (hbrace : ¬ line.text.IsBrace)
    (hlast : line.text.getLast? ≠ some ';') : inHand (some fragment) lines = lines := by
  cases lines with
  | nil => rfl
  | cons next lines =>
    cases hnext : startsWithBrace next.text with
    | true => rw [inHand, LogicalLine.behind_of_brace hnext]
    | false =>
      -- The next line is not cut off the same physical line, as neither is a brace.
      have hnumber : fragment.ends ≠ next.number := by
        rw [hends]
        rcases hfollows next rfl with hlt | ⟨-, hcut | hcut | hcut⟩
        · exact Nat.ne_of_lt hlt
        · exact absurd hcut hlast
        · exact absurd hcut hbrace
        · exact absurd (startsWithBrace_of_isBrace hcut) (Bool.eq_false_iff.mp hnext)
      rw [inHand, LogicalLine.behind, Fragment.numberBehind_of_ends_ne hnumber, ite_self]

end InHand

/-! ### Lines as fragments -/

section Lines

theorem LogicalLine.map_fst_placed (line : LogicalLine) :
    line.placed.map Prod.fst = line.text.withoutBlanks := by
  rw [placed, onLine, List.map_map]
  exact List.map_id _

theorem LogicalLine.placed_ne_nil {line : LogicalLine} (h : line.text.IsTight) :
    line.placed ≠ [] := by
  cases htext : line.text with
  | nil => exact absurd htext h.ne_nil
  | cons c rest =>
    have hc : Text.isBlank c = false := by
      rw [htext] at h
      exact h.head_not_blank
    rw [placed, htext, Text.withoutBlanks, List.filter_cons_of_pos (by simp [hc])]
    exact List.cons_ne_nil _ _

theorem LogicalLine.snd_of_mem_placed {line : LogicalLine} {placed : PlacedChar}
    (h : placed ∈ line.placed) : placed.2 = line.number := by
  obtain ⟨c, -, rfl⟩ := List.mem_map.mp h
  rfl

/-- The fragment that one line is. -/
def Fragment.ofLine (role : Role) (number : Nat) (line : LogicalLine) (h : line.text.IsTight) :
    Fragment :=
  ⟨role, line.text, number, line.placed, line.map_fst_placed, line.placed_ne_nil h⟩

variable {role : Role} {number : Nat} {line : LogicalLine} (h : line.text.IsTight)

theorem Fragment.begins_ofLine : (ofLine role number line h).begins = line.number :=
  LogicalLine.snd_of_mem_placed (List.head_mem _)

theorem Fragment.ends_ofLine : (ofLine role number line h).ends = line.number :=
  LogicalLine.snd_of_mem_placed (List.getLast_mem _)

end Lines

/-! ### Layouts -/

/-- The fragments are cut off the lines one behind another, under the numbers due; they spell the
points, and `rest` is left. -/
structure Layout (locals : List Text) (before : Option Fragment) (lines : List LogicalLine)
    (fragments : List Fragment) (points : List Point) (rest : List LogicalLine) : Prop where
  placed : lines.flatMap LogicalLine.placed =
    fragments.flatMap Fragment.placed ++ rest.flatMap LogicalLine.placed
  attributed : Attributed before fragments
  points : points = fragments.flatMap (Fragment.points locals)
  isBody : IsBody rest

namespace Layout

variable {locals : List Text} {before : Option Fragment} {fragment : Fragment}
  {lines middle rest : List LogicalLine} {front back : List Fragment} {points points' : List Point}

theorem nil (h : IsBody lines) : Layout locals before lines [] [] lines where
  placed := rfl
  attributed := trivial
  points := rfl
  isBody := h

theorem single (hplaced : lines.flatMap LogicalLine.placed =
      fragment.placed ++ rest.flatMap LogicalLine.placed)
    (hdue : fragment.IsDue before) (h : IsBody rest) :
    Layout locals before lines [fragment] (fragment.points locals) rest where
  placed := by rw [hplaced, List.flatMap_singleton]
  attributed := ⟨hdue, trivial⟩
  points := (List.flatMap_singleton ..).symm
  isBody := h

/-- One layout begins where the other ends. -/
theorem append (hfront : Layout locals before lines front points middle)
    (hback : Layout locals (lastOf before front) middle back points' rest) :
    Layout locals before lines (front ++ back) (points ++ points') rest where
  placed := by
    rw [hfront.placed, hback.placed, List.flatMap_append, List.append_assoc]
  attributed := attributed_append.mpr ⟨hfront.attributed, hback.attributed⟩
  points := by rw [hfront.points, hback.points, List.flatMap_append]
  isBody := hback.isBody

/-- The lines behind a layout that leaves nothing. -/
theorem extend (h : Layout locals before lines front points []) (hrest : IsBody rest) :
    Layout locals before (lines ++ rest) front points rest where
  placed := by
    rw [List.flatMap_append, h.placed, List.flatMap_nil, List.append_nil]
  attributed := h.attributed
  points := h.points
  isBody := hrest

end Layout

end SignalScript
