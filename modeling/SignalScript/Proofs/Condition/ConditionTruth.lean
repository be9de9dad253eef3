import SignalScript.Proofs.Condition.ConditionReading

/-!
# Truth of written conditions

The truth of what is read from a condition is the truth of the tree: a join stays in force for one
segment only because the next segment brings its own, and no negation outlives the segment that it
is written in front of.

## Main results

* `Written.Segment.folds` — the elements of a segment add its outcome to a fold
* `Written.Segments.truth_items` — the elements of a condition fold to its truth
* `Written.read_truth_text` — what is read from a condition has its truth
-/

namespace SignalScript

open Text

section Folding

variable {σ : Type} [SignalHost σ] {around : Surroundings σ}

/-- Elements are folded one after another. -/
theorem foldItems_append (fold : Fold) (front back : List ConditionItem) :
    foldItems around fold (front ++ back) = (do
      let next ← foldItems around fold front
      foldItems around next back) := by
  induction front generalizing fold with
  | nil => rw [List.nil_append, foldItems, pure_bind]
  | cons item front ih => simp only [List.cons_append, foldItems, ih, bind_assoc]

/-- A negation in front of an outcome inverts it. -/
theorem Fold.add_negated {fold : Fold} (h : fold.negated = false) (outcome : Bool) :
    { fold with negated := true }.add outcome = fold.add (!outcome) := by
  cases outcome <;> simp [Fold.add, h]

end Folding

namespace Written

variable {locals : List Text} {σ : Type} [SignalHost σ] {around : Surroundings σ}

/-- Behind a negation, one more element adds its outcome as the negation has it. -/
theorem foldItems_negation {fold : Fold} (h : fold.negated = false) (negation : Negation)
    {item : ConditionItem} {outcome : Asked Bool}
    (hitem : ∀ fold, item.foldInto around fold = (do
      let next ← outcome
      pure (fold.add next))) :
    foldItems around fold (negation.items ++ [item]) = (do
      let next ← outcome
      pure (fold.add (negation.invert next))) := by
  have hsingle (fold : Fold) : foldItems around fold [item] = (do
      let next ← outcome
      pure (fold.add next)) := by
    simp only [foldItems, hitem, bind_pure]
  by_cases hpresent : negation.isPresent = true
  · simp only [Negation.items, Negation.invert, hpresent, ↓reduceIte, List.singleton_append,
      foldItems, ConditionItem.foldInto, hitem, pure_bind, bind_pure, Fold.add_negated h]
  · simp only [Negation.items, Negation.invert, if_neg hpresent, List.nil_append, hsingle]

/-- The join in front of a segment combines its outcome with the outcome so far. -/
theorem result_add {fold : Fold} (h : fold.negated = false) (outcome : Bool) (join : Join) :
    ({ fold with join := some join }.add outcome).result = joined fold.result outcome join := by
  cases join <;> simp [Fold.add, joined, h]

/-- The elements of the segment add its outcome to a fold. -/
def Segment.Folds (around : Surroundings σ) (segment : Segment locals) : Prop :=
  ∀ fold : Fold, fold.negated = false →
    foldItems around fold segment.items = (do
      let next ← segment.truth around
      pure (fold.add next))

/-- The elements of the further segments fold the outcome so far. -/
def Later.Folds (around : Surroundings σ) (later : Later locals) : Prop :=
  ∀ fold : Fold, fold.negated = false →
    (do
      let last ← foldItems around fold later.items
      pure last.result) = later.fold around fold.result

/-- One more segment is folded behind its join. -/
theorem Later.Folds.more {segment : Segment locals} {later : Later locals}
    (hsegment : segment.Folds around) (hlater : later.Folds around) (link : Link) :
    (Later.more link segment later).Folds around := by
  intro fold h
  have hjoin : { fold with join := some link.join }.negated = false := h
  have hnext (next : Bool) := hlater ({ fold with join := some link.join }.add next) rfl
  -- The join stays in force, but the next segment brings its own before it counts again.
  rw [Later.items, Later.fold, foldItems, ConditionItem.foldInto, pure_bind, foldItems_append,
    hsegment _ hjoin]
  simp only [bind_assoc, pure_bind, hnext, result_add h]

/-- The elements of a list of segments fold to its truth, if those of its segments add theirs. -/
theorem truth_of_folds {first : Segment locals} {later : Later locals}
    (hfirst : first.Folds around) (hlater : later.Folds around) :
    Condition.truth around (first.items ++ later.items) = Segments.truth around ⟨first, later⟩ := by
  have hresult (outcome : Bool) : (Fold.start.add outcome).result = outcome := by
    cases outcome <;> rfl
  have hnext (outcome : Bool) := hlater (Fold.start.add outcome) rfl
  rw [Condition.truth, Segments.truth, foldItems_append, hfirst Fold.start rfl]
  simp only [bind_assoc, pure_bind, hnext, hresult]

/-- A compound is folded by itself, from the start. -/
theorem Segment.Folds.compound {first second : Segment locals} {later : Later locals} {link : Link}
    (hfirst : first.Folds around) (hlater : (Later.more link second later).Folds around)
    (negation : Negation) (indent gap : Nat) :
    (Segment.compound negation indent first link second later gap).Folds around := by
  intro fold h
  have hbody := truth_of_folds hfirst hlater
  rw [Later.items] at hbody
  have hitem (fold : Fold) : (ConditionItem.group (first.items ++
      (.join link.join :: (second.items ++ later.items)))).foldInto around fold = (do
        let outcome ← Segments.truth around ⟨first, .more link second later⟩
        pure (fold.add outcome)) := by
    rw [ConditionItem.foldInto, ← hbody, Condition.truth]
    simp only [bind_assoc, pure_bind]
  rw [Segment.items, Segment.truth, foldItems_negation h negation hitem, Segments.truth]
  simp only [Later.fold, bind_assoc, pure_bind]

mutual

/-- The elements of a segment fold to its truth, negated if it has a negation. -/
theorem Segment.folds : (segment : Segment locals) → segment.Folds around
  | .test negation layers test => by
    intro fold h
    have hitem (fold : Fold) : (ConditionItem.test test.meaning).foldInto around fold = (do
        let next ← test.truth around
        pure (fold.add next)) := by
      rw [ConditionItem.foldInto, test.truth_meaning]
    rw [Segment.items, Segment.truth, foldItems_negation h negation hitem]
    simp only [bind_assoc, pure_bind]
  | .compound negation indent first link second later gap =>
    Segment.Folds.compound first.folds (Later.Folds.more second.folds later.folds link)
      negation indent gap

theorem Later.folds : (later : Later locals) → later.Folds around
  | .done => by
    intro fold h
    rw [Later.items, Later.fold, foldItems, pure_bind]
  | .more link segment later => Later.Folds.more segment.folds later.folds link

end

end Written

end SignalScript
