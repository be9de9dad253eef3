import SignalScript.Proofs.Condition.Bracket
import SignalScript.Proofs.Condition.Parts

/-!
# Reading written conditions

The reader of conditions finds in the text of a condition exactly the elements that the tree stands
for, and notes nothing. A compound is found again by its number and read as a condition of its own,
so the induction is on the nesting of compounds.

## Main definitions

* `Written.Finds` — the numbers of some compounds lead to the readings of their texts

## Main results

* `Written.readList_text` — a list of segments is read if the compounds in it are
* `Written.Segments.read_text` — the elements of a condition are read from the line of its `IF`
-/

namespace SignalScript

open Text

namespace Written

variable {locals : List Text}

/-- From `number` on, the numbers of the compounds lead to the readings of their texts. -/
def Finds (locals : List Text) (group : Nat → Option (Checked Condition)) (number : Nat)
    (compounds : List Text) : Prop :=
  ∀ place compound, compounds[place]? = some compound →
    group (number + place) = some (Condition.readList locals compound)

/-- The body of a compound is read as its elements. -/
def Segment.Reads : Segment locals → Prop
  | .test _ _ _ => True
  | .compound _ _ first link second later _ =>
    Condition.readList locals (first.text ++ (Later.more link second later).text) =
      pure (first.items ++ (Later.more link second later).items)

/-- The bodies of all compounds among further segments are read as their elements. -/
def Later.Reads : Later locals → Prop
  | .done => True
  | .more _ segment later => segment.Reads ∧ later.Reads

section Finding

variable {group : Nat → Option (Checked Condition)} {number : Nat} {front back : List Text}

theorem Finds.left (h : Finds locals group number (front ++ back)) :
    Finds locals group number front := by
  intro place compound hplace
  have hlt := (List.getElem?_eq_some_iff.mp hplace).1
  exact h place compound (by rw [List.getElem?_append_left hlt, hplace])

theorem Finds.right (h : Finds locals group number (front ++ back)) :
    Finds locals group (number + front.length) back := by
  intro place compound hplace
  rw [Nat.add_assoc]
  refine h (front.length + place) compound ?_
  rw [List.getElem?_append_right (Nat.le_add_right _ _), Nat.add_sub_cancel_left, hplace]

/-- In the list of all compounds, the numbers are the places. -/
theorem finds_getElem (locals : List Text) (compounds : List Text) :
    Finds locals (fun number =>
      if h : number < compounds.length then some (Condition.readList locals compounds[number])
      else none) 0 compounds := by
  intro place compound hplace
  obtain ⟨hlt, hget⟩ := List.getElem?_eq_some_iff.mp hplace
  simp only [Nat.zero_add, dif_pos hlt, hget]

end Finding

/-! ### Parts -/

section Parts

variable {group : Nat → Option (Checked Condition)} {number : Nat}

/-- A test is not in brackets as a whole: no operand of it begins with one. -/
theorem enclosed?_test (test : Test locals) : enclosed? test.text = none := by
  obtain ⟨c, rest, htext, hc⟩ := test.exists_head
  rw [htext, enclosed?.eq_def]
  split
  · rename_i heq
    obtain ⟨rfl, -⟩ := List.cons.inj heq
    cases hc
  · rfl

/-- A test in brackets begins with no negation and is no mark of a compound. -/
theorem exists_head_of_wrap (layers : List (Nat × Nat)) (test : Test locals) :
    ∃ c rest, wrap layers test.text = c :: rest ∧ isBlank c = false ∧
      negation (c :: rest) = (false, c :: rest) ∧ compoundNumber? (c :: rest) = none := by
  cases layers with
  | nil =>
    obtain ⟨c, rest, htext, hc⟩ := test.exists_head
    refine ⟨c, rest, htext, (htext ▸ test.isTight).head_not_blank, htext ▸ test.negation_text, ?_⟩
    rw [compoundNumber?.eq_def]
    -- A mark begins with a square bracket, and no test does.
    split
    · rename_i heq
      obtain ⟨rfl, -⟩ := List.cons.inj heq
      cases hc
    · rfl
  | cons layer layers => exact ⟨'(', _, rfl, rfl, rfl, rfl⟩

/-- The part of a segment is read as its elements, if the body of its compound is. -/
theorem readPart_segment (segment : Segment locals) (hreads : segment.Reads)
    (hfinds : Finds locals group number segment.compounds) (indent gap : Nat) :
    Condition.readPart locals group (spaces indent ++ (segment.lifted number ++ spaces gap)) =
      pure segment.items := by
  have hfront (negation : Negation) : (if negation.isPresent = true then
      [ConditionItem.negation] else []) = negation.items := rfl
  cases segment with
  | test negation layers test =>
    have htight : IsTight ((Segment.test negation layers test).lifted number) :=
      negation.isTight (isTight_wrap test.isTight layers)
    obtain ⟨c, rest, hwrap, hblank, hplain, hnumber⟩ := exists_head_of_wrap layers test
    have hnegation : Text.negation (negation.text ++ wrap layers test.text) =
        (negation.isPresent, wrap layers test.text) := by
      rw [hwrap, negation.read_text hblank hplain]
    have hstrip := stripBrackets_wrap test.isTight test.isBalanced (enclosed?_test test) layers
    rw [Condition.readPart, trim_spaces htight, if_neg (by simp [htight.isEmpty_eq])]
    rw [← hwrap] at hnumber
    simp only [Segment.lifted, hnegation, hnumber, Option.bind_none, hstrip, test.read_text,
      pure_bind, hfront]
    rw [Segment.items]
  | compound negation indent' first link second later gap' =>
    have hmark : IsTight (compoundMark number) := by
      have hopen : IsTight ['['] := IsTight.single rfl
      have hclose : IsTight [']'] := IsTight.single rfl
      exact hopen.append hclose (Decimal.writeNat number)
    have htight : IsTight ((Segment.compound negation indent' first link second later gap').lifted
        number) := negation.isTight hmark
    have hnegation : Text.negation (negation.text ++ compoundMark number) =
        (negation.isPresent, compoundMark number) := negation.read_text rfl rfl
    -- The mark holds the number under which the body of the compound is found.
    have hgroup := hfinds 0 _ rfl
    rw [Nat.add_zero] at hgroup
    rw [Condition.readPart, trim_spaces htight, if_neg (by simp [htight.isEmpty_eq])]
    have hbody : Condition.readList locals
        (first.text ++ (link.text ++ (second.text ++ later.text))) = _ := hreads
    simp only [Segment.lifted, hnegation, compoundNumber?_compoundMark, Option.bind_some, hgroup,
      hbody, pure_bind, hfront]
    rw [Segment.items, Later.items]

/-- The parts of further segments are read as their elements, if the bodies of their compounds
are. -/
theorem readLater_later :
    (later : Later locals) → (number : Nat) → later.Reads →
    Finds locals group number later.compounds →
    Condition.readLater (Condition.readPart locals group) (later.parts number) = pure later.items
  | .done, _, _, _ => by
    rw [Later.parts, Condition.readLater, Later.items]
  | .more link segment later, number, hreads, hfinds => by
    have hsegment := readPart_segment segment hreads.1 hfinds.left link.after later.gap
    have hlater := readLater_later later (number + segment.compounds.length) hreads.2 hfinds.right
    rw [Later.parts, Condition.readLater]
    simp only [hsegment, hlater, pure_bind]
    rw [Later.items, List.cons_append]

end Parts

/-! ### Conditions -/

/-- Segments are read as their elements, if the bodies of their compounds are. -/
theorem readList_text (first : Segment locals) (later : Later locals) (hfirst : first.Reads)
    (hlater : later.Reads) :
    Condition.readList locals (first.text ++ later.text) = pure (first.items ++ later.items) := by
  have hlift := liftCompounds_text first later
  have hsplit := splitSeparators_lifted 0 first.compounds.length 0 first later
  rw [spaces_zero, List.nil_append, List.nil_append] at hsplit
  rw [Condition.readList]
  simp only [hlift, hsplit]
  -- The compounds are numbered as they are listed: those of the first segment, then the others.
  have hfinds := finds_getElem locals (first.compounds ++ later.compounds)
  have hright := hfinds.right
  rw [Nat.zero_add] at hright
  have hpart := readPart_segment first hfirst hfinds.left 0 later.gap
  rw [spaces_zero, List.nil_append] at hpart
  rw [hpart, readLater_later later first.compounds.length hlater hright]
  simp only [pure_bind]

mutual

/-- The body of a compound is read as its elements. -/
theorem Segment.reads : (segment : Segment locals) → segment.Reads
  | .test _ _ _ => trivial
  | .compound _ _ first link second later _ =>
    readList_text first (.more link second later) first.reads ⟨second.reads, later.reads⟩

theorem Later.reads : (later : Later locals) → later.Reads
  | .done => trivial
  | .more _ segment later => ⟨segment.reads, later.reads⟩

end

/-- The elements of a condition are read from the line of its `IF`, and nothing is noted. -/
theorem Segments.read_text (segments : Segments locals) {front : Text} (hfront : '(' ∉ front)
    (indent gap : Nat) :
    Condition.read locals
      (front ++ '(' :: (spaces indent ++ (segments.text ++ spaces gap) ++ [')'])) =
      pure segments.items := by
  have htight : IsTight segments.text := isTight_append_later segments.first.isTight segments.later
  rw [Condition.read_brackets hfront, trim_spaces htight]
  exact readList_text segments.first segments.later segments.first.reads segments.later.reads

end Written

end SignalScript
