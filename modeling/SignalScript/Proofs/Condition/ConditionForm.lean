import SignalScript.Proofs.Expression.Scope
import SignalScript.Proofs.Splitting
import SignalScript.Condition.Reading

/-!
# The form of conditions

Whatever stands in the text of a condition, the elements that are read from it are in order: a
negation has something to invert, and two outcomes are never side by side. A part without text
leaves nothing between its joins, which does no harm.

## Main definitions

* `IsRow` — how elements may follow each other
* `Condition.IsOrdered` — what that order promises
* `Condition.WellFormed` — what is promised of a condition and of the groups in it

## Main results

* `IsRow.isOrdered` — elements that follow each other so are in order
* `Condition.wellFormed_read` — what is read from the line of an `IF` keeps all promises
-/

namespace SignalScript

/-! ### Promises -/

namespace Test

/-- The sides of a test. -/
def sides : Test → List Side
  | .single side => [side]
  | .compare left _ right => [left, right]

/-- The comparator of a test, if it has one. -/
def comparator? : Test → Option Comparator
  | .single _ => none
  | .compare _ comparator _ => some comparator

/-- The right side of a test, if it has one. -/
def right? : Test → Option Side
  | .single _ => none
  | .compare _ _ right => some right

/-- What is promised of a test: its operands are in scope, and a comparator and a right side are
there together or not at all. The second promise is carried by the type, which has a form for one
side and a form for two: no test could break it. -/
structure WellFormed (locals : List Text) (test : Test) : Prop where
  inScope : ∀ side ∈ test.sides, side.atom.InScope locals
  /-- Holds of every `Test`, whichever of its two forms it has. -/
  comparator_iff : test.comparator?.isSome = true ↔ test.right?.isSome = true

end Test

/-- The element is a test or a group, so it has an outcome. -/
def ConditionItem.hasOutcome : ConditionItem → Bool
  | .test _ | .group _ => true
  | .join _ | .negation => false

/-- The elements of a condition are in order. -/
structure Condition.IsOrdered (items : Condition) : Prop where
  /-- What a negation inverts stands right behind it. -/
  outcome_of_negation : ∀ front back, items = front ++ .negation :: back →
    ∃ item rest, back = item :: rest ∧ item.hasOutcome = true
  join_between : ∀ front first between second back,
    items = front ++ first :: (between ++ second :: back) → first.hasOutcome = true →
    second.hasOutcome = true → ∃ join, .join join ∈ between

mutual

/-- What is promised of an element of a condition. -/
inductive ConditionItem.WellFormed (locals : List Text) : ConditionItem → Prop
  | test {test : Test} (h : test.WellFormed locals) : ConditionItem.WellFormed locals (.test test)
  | join (join : Join) : ConditionItem.WellFormed locals (.join join)
  | negation : ConditionItem.WellFormed locals .negation
  | group {items : List ConditionItem} (h : Condition.WellFormed locals items) :
    ConditionItem.WellFormed locals (.group items)

/-- What is promised of a condition. -/
inductive Condition.WellFormed (locals : List Text) : List ConditionItem → Prop
  | mk {items : List ConditionItem} (ordered : Condition.IsOrdered items)
    (each : ∀ item ∈ items, ConditionItem.WellFormed locals item) :
    Condition.WellFormed locals items

end

/-! ### Rows -/

/-- How elements follow each other; if `free` holds, an outcome may come first. -/
inductive IsRow : (free : Bool) → List ConditionItem → Prop
  | done {free : Bool} : IsRow free []
  | join {free : Bool} {join : Join} {items : List ConditionItem} (h : IsRow true items) :
    IsRow free (.join join :: items)
  | outcome {item : ConditionItem} {items : List ConditionItem} (hitem : item.hasOutcome = true)
    (h : IsRow false items) : IsRow true (item :: items)
  | negated {item : ConditionItem} {items : List ConditionItem} (hitem : item.hasOutcome = true)
    (h : IsRow false items) : IsRow true (.negation :: item :: items)

namespace IsRow

variable {free : Bool} {items : List ConditionItem}

/-- Behind a negation in a row stands an element with an outcome. -/
theorem outcome_of_negation (h : IsRow free items) :
    ∀ front item back, items = front ++ item :: back → item = .negation →
      ∃ next rest, back = next :: rest ∧ next.hasOutcome = true := by
  -- What has an outcome is no negation.
  have hno {item : ConditionItem} {P : Prop} (hitem : item.hasOutcome = true)
      (h : item = .negation) : P := by
    rw [h] at hitem
    cases hitem
  induction h with
  | done => simp
  | join _ ih => exact forall_split_cons (fun h => nomatch h) ih
  | outcome hitem _ ih => exact forall_split_cons (hno hitem) ih
  | negated hitem _ ih =>
    exact forall_split_cons (fun _ => ⟨_, _, rfl, hitem⟩) (forall_split_cons (hno hitem) ih)

/-- Where no outcome may come first, a join stands in front of every outcome. -/
theorem join_before (h : IsRow free items) (hfree : free = false)
    {between back : List ConditionItem} {second : ConditionItem}
    (hsplit : items = between ++ second :: back) (hsecond : second.hasOutcome = true) :
    ∃ join, .join join ∈ between := by
  cases h with
  | done => simp at hsplit
  | join _ =>
    cases between with
    | nil =>
      obtain ⟨rfl, -⟩ := List.cons.inj hsplit
      cases hsecond
    | cons first between =>
      obtain ⟨rfl, -⟩ := List.cons.inj hsplit
      exact ⟨_, List.mem_cons_self⟩
  | outcome _ _ => cases hfree
  | negated _ _ => cases hfree

/-- Between two outcomes of a row stands a join. -/
theorem join_between (h : IsRow free items) :
    ∀ front first behind, items = front ++ first :: behind → first.hasOutcome = true →
      ∀ between second back, behind = between ++ second :: back → second.hasOutcome = true →
        ∃ join, .join join ∈ between := by
  induction h with
  | done => simp
  | join _ ih => exact forall_split_cons (fun h => nomatch h) ih
  | outcome _ hrest ih =>
    exact forall_split_cons (fun _ _ _ _ => hrest.join_before rfl) ih
  | negated _ hrest ih =>
    exact forall_split_cons (fun h => nomatch h)
      (forall_split_cons (fun _ _ _ _ => hrest.join_before rfl) ih)

/-- Elements that follow each other so are in order. -/
theorem isOrdered (h : IsRow free items) : Condition.IsOrdered items where
  outcome_of_negation front back hsplit := h.outcome_of_negation front .negation back hsplit rfl
  join_between front first between second back hsplit hfirst :=
    h.join_between front first _ hsplit hfirst between second back rfl

end IsRow

/-! ### Reading -/

/-- What a part of a condition is read as: an outcome, which may be negated, or nothing. -/
inductive IsPart (locals : List Text) : List ConditionItem → Prop
  | blank : IsPart locals []
  | plain {item : ConditionItem} (hitem : item.hasOutcome = true)
    (h : item.WellFormed locals) : IsPart locals [item]
  | negated {item : ConditionItem} (hitem : item.hasOutcome = true)
    (h : item.WellFormed locals) : IsPart locals [.negation, item]

section Reading

variable {locals : List Text}

namespace IsPart

variable {part items : List ConditionItem}

/-- A part in front of a join. -/
theorem isRow_append (h : IsPart locals part) (hitems : IsRow false items) :
    IsRow true (part ++ items) := by
  cases h with
  | blank =>
    -- Behind a blank part a join comes first, as it may anywhere.
    cases hitems with
    | done => exact .done
    | join h => exact .join h
  | plain hitem _ => exact .outcome hitem hitems
  | negated hitem _ => exact .negated hitem hitems

/-- The elements of a part keep their promises. -/
theorem wellFormed (h : IsPart locals part) : ∀ item ∈ part, item.WellFormed locals := by
  cases h with
  | blank => simp
  | plain _ h => exact List.forall_mem_singleton.mpr h
  | negated _ h => exact List.forall_mem_cons.mpr ⟨.negation, List.forall_mem_singleton.mpr h⟩

/-- An element with an outcome is a part, whether it is negated or not. -/
theorem of_negated (negated : Bool) {item : ConditionItem} (hitem : item.hasOutcome = true)
    (h : item.WellFormed locals) :
    IsPart locals ((if negated then [ConditionItem.negation] else []) ++ [item]) := by
  cases negated with
  | true => exact .negated hitem h
  | false => exact .plain hitem h

end IsPart

theorem inScope_side (locals : List Text) (text : Text) :
    (Side.read locals text).value.atom.InScope locals := by
  let name := Text.trim (Text.negation (Text.trim text)).2
  change Atom.InScope locals (if name.isEmpty then _ else _ : Checked Side).value.atom
  split
  · trivial
  · change Atom.InScope locals ((Atom.read locals name).value.getD _)
    cases hatom : (Atom.read locals name).value with
    | none => trivial
    | some atom => exact Atom.inScope_read hatom

/-- Whatever the text of a test is, what is read keeps all promises. -/
theorem Test.wellFormed_read (locals : List Text) (text : Text) :
    (Test.read locals text).value.WellFormed locals := by
  rw [Test.read]
  split
  · exact ⟨List.forall_mem_singleton.mpr (inScope_side locals text), Iff.rfl⟩
  · exact ⟨List.forall_mem_cons.mpr ⟨inScope_side locals _,
      List.forall_mem_singleton.mpr (inScope_side locals _)⟩, Iff.rfl⟩

namespace Condition

/-- A part is read as one, if the compounds are conditions. -/
theorem isPart_readPart {group : Nat → Option (Checked Condition)}
    (hgroup : ∀ number compound, group number = some compound → WellFormed locals compound.value)
    (part : Text) : IsPart locals (readPart locals group part).value := by
  rw [readPart]
  simp only
  split
  · exact .blank
  · split
    · rename_i compound hcompound
      obtain ⟨number, -, hnumber⟩ := Option.bind_eq_some_iff.mp hcompound
      exact .of_negated _ rfl (.group (hgroup number compound hnumber))
    · exact .of_negated _ rfl (.test (Test.wellFormed_read locals _))

/-- Behind a part, further parts follow each other with a join in front of each. -/
theorem readLater_form {read : Text → Checked Condition}
    (hread : ∀ part, IsPart locals (read part).value) (parts : List (Join × Text)) :
    IsRow false (readLater read parts).value ∧
      ∀ item ∈ (readLater read parts).value, item.WellFormed locals := by
  induction parts with
  | nil => exact ⟨.done, by simp [readLater]⟩
  | cons first parts ih =>
    obtain ⟨join, part⟩ := first
    obtain ⟨hrow, hitems⟩ := ih
    exact ⟨.join ((hread part).isRow_append hrow), List.forall_mem_cons.mpr
      ⟨.join join, List.forall_mem_append.mpr ⟨(hread part).wellFormed, hitems⟩⟩⟩

/-- Whatever the text is, the condition that is read keeps all promises, and so do its groups. -/
theorem wellFormed_readList (locals : List Text) (text : Text) :
    WellFormed locals (readList locals text).value := by
  rw [readList]
  have hpart : ∀ part, IsPart locals (readPart locals (fun number =>
      if h : number < (liftCompounds text).compounds.length then
        some (readList locals (liftCompounds text).compounds[number])
      else none) part).value := by
    -- The compounds are shorter than the text, and the recursion is on them.
    apply isPart_readPart
    intro number compound hcompound
    split at hcompound
    · obtain rfl := Option.some.inj hcompound
      exact wellFormed_readList locals _
    · cases hcompound
  have hlater := readLater_form hpart (splitSeparators (liftCompounds text).text).later
  have hfirst := hpart (splitSeparators (liftCompounds text).text).first
  exact .mk (hfirst.isRow_append hlater.1).isOrdered
    (List.forall_mem_append.mpr ⟨hfirst.wellFormed, hlater.2⟩)
termination_by text.length
decreasing_by exact length_of_mem_liftCompounds (List.getElem_mem _)

theorem wellFormed_nil : WellFormed locals [] := by
  have hrow : IsRow true [] := .done
  exact .mk hrow.isOrdered (by simp)

/-- What is read from the line of an `IF` keeps all promises. -/
theorem wellFormed_read (locals : List Text) (head : Text) :
    WellFormed locals (read locals head).value := by
  rw [read]
  split
  · split
    · exact wellFormed_nil
    · exact wellFormed_readList locals _
  · exact wellFormed_nil

end Condition

end Reading

end SignalScript
