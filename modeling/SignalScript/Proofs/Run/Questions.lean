import Mathlib.Algebra.Order.BigOperators.Group.List
import Mathlib.Algebra.Order.Ring.Nat
import SignalScript.Proofs.Expression.ChainValue
import SignalScript.Proofs.Expression.AssignmentForm
import SignalScript.Proofs.Condition.ConditionForm
import SignalScript.Run.Truth

/-!
# Questions asked for a value

Evaluation asks the signal and changes nothing, so what it does is the list of its questions. For a
chain these are the questions of its terms, each asked once and in the order of the text: a group is
evaluated where it stands, its level belongs to no other group, and nothing stands behind a
`RETURN`. For a condition they are the questions of its tests, in groups of any depth, whatever the
tests before them have decided. So no value takes more questions than it has operands and calls.

## Main definitions

* `Term.questions`, `Test.questions` — the questions of one term and of one test
* `Condition.tests` — the tests of a condition and of the groups in it
* `Chain.size`, `Condition.size` — the number of operands and calls

## Main results

* `notes_value_of_isLevel` — a chain asks the questions of its terms, once and in order
* `notes_truth` — a condition asks the questions of its tests, once and in order
* `length_questions_chain_le`, `length_questions_condition_le` — no more questions than operands and
  calls
-/

namespace SignalScript

variable {σ : Type} [SignalHost σ]

/-- The questions that the term itself asks. -/
def Term.questions (around : Surroundings σ) (term : Term) : List Query :=
  match term.factor with
  | .atom atom => (atom.value around).notes
  | .ret | .group _ => []

/-- The questions that a test asks. -/
def Test.questions (around : Surroundings σ) (test : Test) : List Query := (test.truth around).notes

mutual

/-- The tests of an element of a condition. -/
def ConditionItem.tests : ConditionItem → List Test
  | .test test => [test]
  | .join _ | .negation => []
  | .group items => testsOf items

/-- The tests of a condition and of the groups in it, in order. -/
def testsOf : List ConditionItem → List Test
  | [] => []
  | item :: rest => item.tests ++ testsOf rest

end

/-- The tests of a condition and of the groups in it, in order. -/
def Condition.tests (condition : Condition) : List Test := testsOf condition

/-! ### Chains -/

section Chains

open Written (factorValue HoldsLevels value_eq_foldTerms)

variable {around : Surroundings σ} {whole inner more terms : Chain} {term : Term}
  {level last middle last' : Nat} {led returned : Bool} {locals : List Text}

/-- The terms of a group and those behind it share no level above `last`. -/
theorem holdsLevels_group (hlevel : level ≤ last) (hterm : term.level = level)
    (hlow : last < middle) (hhigh : middle ≤ last')
    (hinner : ∀ term ∈ inner, last < term.level ∧ term.level ≤ middle)
    (hmore : ∀ term ∈ more, term.level = level ∨ middle < term.level ∧ term.level ≤ last')
    (h : HoldsLevels whole last last' (term :: (inner ++ more))) :
    HoldsLevels whole last middle inner ∧ HoldsLevels whole middle last' more := by
  refine ⟨fun id hid hupTo => ?_, fun id hid hupTo => ?_⟩
  · have hnone : atLevel id more = [] := atLevel_eq_nil fun term hmem => by
      have := hmore term hmem
      omega
    rw [h id hid (by omega), atLevel_cons_of_ne (by omega), atLevel_append, hnone, List.append_nil]
  · have hnone : atLevel id inner = [] := atLevel_eq_nil fun term hmem => by
      have := hinner term hmem
      omega
    rw [h id (by omega) hupTo, atLevel_cons_of_ne (by omega), atLevel_append, hnone,
      List.nil_append]

/-- One more term asks its questions, and then those behind it are asked. -/
theorem notes_foldTerms_cons (factor : Factor → Asked (Option Int32)) (term : Term) {value : Int32}
    (hvalue : (factor term.factor).value = some value) (total : Int32) (terms : List Term) :
    ∃ total', (foldTerms factor total (term :: terms)).notes =
        (factor term.factor).notes ++ (foldTerms factor total' terms).notes ∧
      (foldTerms factor total (term :: terms)).value = (foldTerms factor total' terms).value := by
  rw [foldTerms]
  simp only [Noted.notes_bind, Noted.value_bind, hvalue]
  exact ⟨_, rfl, rfl⟩

/-- A term without a value asks its questions, and no others are asked. -/
theorem foldTerms_cons_none (factor : Factor → Asked (Option Int32)) (term : Term)
    (hvalue : (factor term.factor).value = none) (total : Int32) (terms : List Term) :
    (foldTerms factor total (term :: terms)).notes = (factor term.factor).notes ∧
      (foldTerms factor total (term :: terms)).value = none := by
  rw [foldTerms]
  simp only [Noted.notes_bind, Noted.value_bind, hvalue]
  exact ⟨List.append_nil _, rfl⟩

/-- A group that is evaluated in its place is the fold of its own terms. -/
theorem factorValue_group (hlevel : level ≤ last) (hfit : last + 1 ≤ whole.length)
    (hwhole : atLevel (last + 1) whole = atLevel (last + 1) inner) :
    factorValue around whole level (.group (last + 1)) =
      foldTerms (factorValue around whole (last + 1)) 0 (atLevel (last + 1) inner) := by
  rw [factorValue, if_pos ⟨by omega, hfit⟩, value_eq_foldTerms, hwhole]

/-- The terms of a level ask their own questions and those of the groups in it, each once and in the
order of the text; there is no value exactly if a `RETURN` stands there. -/
theorem notes_foldTerms_of_isLevel (h : IsLevel locals level last led terms last' returned)
    (hlevel : level ≤ last) (hfit : last' ≤ whole.length)
    (hholds : HoldsLevels whole last last' terms) (total : Int32) :
    (foldTerms (factorValue around whole level) total (atLevel level terms)).notes =
        terms.flatMap (Term.questions around) ∧
      (foldTerms (factorValue around whole level) total (atLevel level terms)).value.isNone =
        returned := by
  induction h generalizing total with
  | done => exact ⟨rfl, rfl⟩
  | @atom level last last' led returned negated operator atom more _ _ hmore ih =>
    have hrest : HoldsLevels whole last last' more := fun id hlow hhigh => by
      rw [hholds id hlow hhigh, atLevel_cons_of_ne (Nat.ne_of_lt (Nat.lt_of_le_of_lt hlevel hlow))]
    obtain ⟨total', hnotes, hvalue⟩ := notes_foldTerms_cons
      (factorValue around whole level) ⟨negated, operator, level, .atom atom⟩ rfl total
      (atLevel level more)
    obtain ⟨hnotes', hvalue'⟩ := ih hlevel hfit hrest total'
    rw [atLevel_cons_self, hnotes, hvalue, hnotes', hvalue', List.flatMap_cons]
    exact ⟨congrArg (· ++ _) (List.append_nil _), rfl⟩
  | @ret level last led negated operator _ =>
    obtain ⟨hnotes, hvalue⟩ := foldTerms_cons_none
      (factorValue around whole level) ⟨negated, operator, level, .ret⟩ rfl total []
    rw [atLevel_cons_self, atLevel_nil, hnotes, hvalue]
    exact ⟨rfl, rfl⟩
  | @group level last middle last' led returned negated operator inner more _ hgroup hmore ihgroup
      ihmore =>
    have hlow := hgroup.last_le
    have hhigh := hmore.last_le
    have hlevels (term : Term) (hterm : term ∈ inner) :
        last < term.level ∧ term.level ≤ middle := by
      have := hgroup.level_of_mem term hterm
      omega
    obtain ⟨hinner, hbehind⟩ := holdsLevels_group hlevel rfl hlow hhigh hlevels hmore.level_of_mem
      hholds
    -- On the level of the marker the group leaves no term.
    have hpassed : atLevel level (inner ++ more) = atLevel level more := by
      rw [atLevel_append, atLevel_eq_nil fun term hterm => by have := hlevels term hterm; omega,
        List.nil_append]
    obtain ⟨hnotes, hvalue⟩ := ihgroup (Nat.le_refl _) (by omega)
      (fun id hid => hinner id (by omega)) 0
    rw [← factorValue_group hlevel (by omega) (hinner (last + 1) (by omega) hlow)] at hnotes hvalue
    obtain ⟨value, hsome⟩ := Option.isSome_iff_exists.mp (Option.isNone_eq_false_iff.mp hvalue)
    obtain ⟨total', hnotes', hvalue'⟩ := notes_foldTerms_cons
      (factorValue around whole level) ⟨negated, operator, level, .group (last + 1)⟩ hsome total
      (atLevel level more)
    obtain ⟨hmoreNotes, hmoreValue⟩ := ihmore (by omega) hfit hbehind total'
    rw [atLevel_cons_self, hpassed, hnotes', hvalue', hnotes, hmoreNotes, hmoreValue,
      List.flatMap_cons, List.flatMap_append]
    exact ⟨rfl, rfl⟩
  | @groupReturned level last last' led negated operator inner _ hgroup ihgroup =>
    have hlow := hgroup.last_le
    have hlevels (term : Term) (hterm : term ∈ inner) :
        last < term.level ∧ term.level ≤ last' := by
      have := hgroup.level_of_mem term hterm
      omega
    have hinner : HoldsLevels whole last last' inner := fun id hid hupTo => by
      rw [hholds id hid hupTo, atLevel_cons_of_ne (Nat.ne_of_lt (Nat.lt_of_le_of_lt hlevel hid))]
    have hpassed : atLevel level inner = [] :=
      atLevel_eq_nil fun term hterm => by have := hlevels term hterm; omega
    obtain ⟨hnotes, hvalue⟩ := ihgroup (Nat.le_refl _) hfit (fun id hid => hinner id (by omega)) 0
    rw [← factorValue_group hlevel (by omega) (hinner (last + 1) (by omega) hlow)] at hnotes hvalue
    -- What the group does not have, the level around it does not have either.
    obtain ⟨hnotes', hvalue'⟩ := foldTerms_cons_none
      (factorValue around whole level) ⟨negated, operator, level, .group (last + 1)⟩
      (Option.isNone_iff_eq_none.mp hvalue) total []
    rw [atLevel_cons_self, hpassed, hnotes', hvalue', hnotes, List.flatMap_cons]
    exact ⟨rfl, rfl⟩

/-- A chain in the form of a level asks the questions of its terms, each once and in order. -/
theorem notes_value_of_isLevel {chain : Chain}
    (h : IsLevel locals 0 0 led chain last' returned) (around : Surroundings σ) :
    (Chain.value around chain 0).notes = chain.flatMap (Term.questions around) := by
  -- There are no more levels than terms that open one.
  have hfit : last' ≤ chain.length := by
    have hcount := congrArg List.length h.opened
    rw [List.length_range'] at hcount
    have := List.length_filterMap_le Term.opens? chain
    omega
  rw [value_eq_foldTerms]
  exact (notes_foldTerms_of_isLevel h (Nat.le_refl 0) hfit (fun _ _ _ => rfl) 0).1

end Chains

/-! ### Conditions -/

section Conditions

variable (around : Surroundings σ)

mutual

/-- An element asks what its tests ask, whatever the fold has come to. -/
theorem ConditionItem.notes_foldInto (fold : Fold) (item : ConditionItem) :
    (item.foldInto around fold).notes = item.tests.flatMap (Test.questions around) := by
  match item with
  | .test test =>
    rw [ConditionItem.foldInto, ConditionItem.tests, List.flatMap_singleton]
    exact List.append_nil _
  | .join _ => rw [ConditionItem.foldInto, ConditionItem.tests]; rfl
  | .negation => rw [ConditionItem.foldInto, ConditionItem.tests]; rfl
  | .group items =>
    rw [ConditionItem.foldInto, ConditionItem.tests, Noted.notes_bind, notes_foldItems]
    exact List.append_nil _
termination_by structural item

theorem notes_foldItems (fold : Fold) (items : List ConditionItem) :
    (foldItems around fold items).notes = (testsOf items).flatMap (Test.questions around) := by
  match items with
  | [] => rw [foldItems, testsOf]; rfl
  | item :: rest =>
    rw [foldItems, testsOf, Noted.notes_bind, ConditionItem.notes_foldInto, notes_foldItems,
      List.flatMap_append]
termination_by structural items

end

/-- A condition asks the questions of its tests, each once and in order. -/
theorem notes_truth (condition : Condition) :
    (Condition.truth around condition).notes =
      condition.tests.flatMap (Test.questions around) := by
  rw [Condition.truth, Noted.notes_bind, notes_foldItems]
  exact List.append_nil _

end Conditions

/-! ### Numbers of questions -/

/-- The number of operands and calls. -/
def Atom.size : Atom → Nat
  | .operand _ => 1
  | .call c => 1 + c.arguments.length

/-- The number of operands and calls in a term itself; the terms of a group are counted for
themselves. -/
def Term.size (term : Term) : Nat :=
  match term.factor with
  | .atom atom => atom.size
  | .ret | .group _ => 0

/-- The number of operands and calls in a chain, over all levels. -/
def Chain.size (chain : Chain) : Nat := (chain.map Term.size).sum

/-- The number of operands and calls on both sides of a test. -/
def Test.size (test : Test) : Nat := (test.sides.map fun side => side.atom.size).sum

/-- The number of operands and calls in a condition, over all depths. -/
def Condition.size (condition : Condition) : Nat := (condition.tests.map Test.size).sum

section Sizes

variable (around : Surroundings σ)

theorem length_questions_operand_le (operand : Operand) :
    (operand.value around).notes.length ≤ 1 := by
  cases operand <;> simp [Operand.value, ask]

/-- An argument that is not there asks nothing. -/
theorem length_questions_argument_le (call : Call) (place : Nat) :
    (call.argument around place).notes.length ≤ if place < call.arguments.length then 1 else 0 := by
  rw [Call.argument]
  split
  · rename_i operand hplace
    obtain ⟨hlt, -⟩ := List.getElem?_eq_some_iff.mp hplace
    rw [if_pos hlt]
    exact length_questions_operand_le around operand
  · exact Nat.zero_le _

/-- A call asks at most one question besides those of its arguments. -/
theorem length_questions_call_le (call : Call) :
    (call.value around).notes.length ≤
      (call.argument around 0).notes.length + (call.argument around 1).notes.length + 1 := by
  rw [Call.value, Noted.notes_bind, Noted.notes_bind]
  simp only [List.length_append]
  split
  · simp only [ask, List.length_singleton]
    omega
  · simp

/-- An atom asks no more questions than its size. -/
theorem length_questions_atom_le (atom : Atom) : (atom.value around).notes.length ≤ atom.size := by
  cases atom with
  | operand operand => exact length_questions_operand_le around operand
  | call call =>
    have hfirst := length_questions_argument_le around call 0
    have hsecond := length_questions_argument_le around call 1
    have hcall := length_questions_call_le around call
    change (call.value around).notes.length ≤ 1 + call.arguments.length
    split at hfirst <;> split at hsecond <;> omega

theorem length_flatMap_le {α β : Type} {f : α → List β} {size : α → Nat}
    (h : ∀ a, (f a).length ≤ size a) (list : List α) :
    (list.flatMap f).length ≤ (list.map size).sum := by
  rw [List.length_flatMap]
  exact List.sum_le_sum fun a _ => h a

/-- A chain asks no more questions than it has operands and calls. -/
theorem length_questions_chain_le (chain : Chain) :
    (chain.flatMap (Term.questions around)).length ≤ chain.size := by
  refine length_flatMap_le (fun term => ?_) chain
  rw [Term.questions, Term.size]
  cases term.factor with
  | atom atom => exact length_questions_atom_le around atom
  | ret => exact Nat.le_refl 0
  | group _ => exact Nat.le_refl 0

/-- A condition asks no more questions than it has operands and calls. -/
theorem length_questions_condition_le (condition : Condition) :
    (condition.tests.flatMap (Test.questions around)).length ≤ condition.size := by
  refine length_flatMap_le (fun test => ?_) condition.tests
  cases test with
  | single side =>
    have hside := length_questions_atom_le around side.atom
    simpa [Test.questions, Test.truth, Test.size, Test.sides] using hside
  | compare left comparator right =>
    have hleft := length_questions_atom_le around left.atom
    have hright := length_questions_atom_le around right.atom
    simp [Test.questions, Test.truth, Test.size, Test.sides]
    omega

end Sizes

end SignalScript
