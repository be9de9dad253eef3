import SignalScript.Proofs.Expression.LevelTree
import SignalScript.Proofs.Fuel.Chain
import SignalScript.Proofs.Run.Questions
import SignalScript.Signal.Fixed

/-!
# Arithmetic of chains

Chains are evaluated in 32 bits, and this is what comes of it over the integers: a level is folded
from left to right, a group is reduced to its value before it is joined, and every intermediate
result is taken modulo `2 ^ 32` into the signed range. Quotients are cut off toward zero, and the
remainder has the sign of the dividend. There is one exception. The quotient of the least number by
minus one does not fit in 32 bits; it counts as zero and does not wrap around like a sum or product
that does not fit.

## Main definitions

* `Operator.exact` — an operator on integers, reduced to 32 bits
* `Operator.Overflows` — the division whose quotient does not fit
* `Operator.checked` — an operator as it is applied, the overflow included
* `LevelTree.fold` — the fold of a level over the integers
* `LevelTree.QuotientsFit` — no quotient of the fold overflows

## Main results

* `Operator.toInt_apply` — the arithmetic of one operator
* `LevelTree.fold_checked` — without overflow the fold is exact
* `Chain.toInt_value_of_read` — the value of every chain that is read
* `Chain.exists_quotient_zero` — a quotient that is zero though its divisor is not
-/

namespace SignalScript

namespace Operator

/-- The result of an operator on integers, reduced modulo `2 ^ 32` to the signed range. A zero
divisor gives zero. -/
def exact (total value : Int) : Operator → Int
  | .plus => (total + value).bmod (2 ^ 32)
  | .minus => (total - value).bmod (2 ^ 32)
  | .times => (total * value).bmod (2 ^ 32)
  | .divide => if value = 0 then 0 else (total.tdiv value).bmod (2 ^ 32)
  | .modulo => if value = 0 then 0 else (total.tmod value).bmod (2 ^ 32)

/-- The least number is divided by minus one. -/
def Overflows (total value : Int) (op : Operator) : Prop :=
  op = .divide ∧ total = -2 ^ 31 ∧ value = -1

instance (total value : Int) (op : Operator) : Decidable (op.Overflows total value) :=
  inferInstanceAs (Decidable (_ ∧ _))

theorem overflows_divide_iff {total value : Int32} :
    Overflows total.toInt value.toInt .divide ↔ total = Int32.minValue ∧ value = -1 := by
  have htotal : total.toInt = -2 ^ 31 ↔ total = Int32.minValue :=
    Int32.toInt_inj (y := Int32.minValue)
  have hvalue : value.toInt = -1 ↔ value = -1 := Int32.toInt_inj (y := -1)
  rw [Overflows, htotal, hvalue]
  exact ⟨fun h => h.2, fun h => ⟨rfl, h⟩⟩

theorem divides_of_not_overflows {total value : Int32} (hzero : value ≠ 0)
    (hover : ¬ Overflows total.toInt value.toInt .divide) : divides total value = true := by
  rw [overflows_divide_iff] at hover
  rw [divides, decide_eq_true hzero, Bool.true_and, Bool.not_eq_true', ← Bool.decide_and]
  exact decide_eq_false hover

/-- In 32 bits an operator has its exact result, except that the quotient that does not fit is
zero. -/
theorem toInt_apply (total value : Int32) (op : Operator) : (op.apply total value).toInt =
    if op.Overflows total.toInt value.toInt then 0 else op.exact total.toInt value.toInt := by
  cases op with
  | plus => exact Int32.toInt_add total value
  | minus => exact Int32.toInt_sub total value
  | times => exact Int32.toInt_mul total value
  | divide =>
    -- Besides a zero divisor, there is one quotient that 32 bits do not hold.
    by_cases hzero : value = 0
    · have hover : ¬ Overflows total.toInt value.toInt .divide := by
        rw [overflows_divide_iff, hzero]
        exact fun h => absurd h.2 (by decide)
      rw [if_neg hover, hzero]
      rfl
    · have hvalue : value.toInt ≠ 0 := fun h => hzero (Int32.toInt_inj.mp h)
      by_cases hover : Overflows total.toInt value.toInt .divide
      · rw [if_pos hover]
        obtain ⟨rfl, rfl⟩ := overflows_divide_iff.mp hover
        rfl
      · rw [if_neg hover, apply, if_pos (divides_of_not_overflows hzero hover), exact,
          if_neg hvalue]
        exact Int32.toInt_div total value
  | modulo =>
    -- The remainder of that quotient is zero in any case, so nothing is excepted.
    rw [if_neg fun h => by cases h.1]
    by_cases hzero : value = 0
    · rw [hzero]
      rfl
    · have hvalue : value.toInt ≠ 0 := fun h => hzero (Int32.toInt_inj.mp h)
      rw [exact, if_neg hvalue]
      by_cases hover : Overflows total.toInt value.toInt .divide
      · obtain ⟨rfl, rfl⟩ := overflows_divide_iff.mp hover
        rfl
      · rw [apply, if_pos (divides_of_not_overflows hzero hover), ← Int32.toInt_mod]
        exact (Int32.toInt_bmod (total % value)).symm

end Operator

namespace LevelTree

/-- Zero becomes one and all else zero, if the term is negated. -/
def signed (negated : Bool) (value : Int) : Int :=
  if negated then if value = 0 then 1 else 0 else value

/-- The running total after a term; a term without operator replaces it. -/
def joined (apply : Int → Int → Operator → Int) (operator : Option Operator) (total value : Int) :
    Int :=
  match operator with
  | none => value
  | some op => apply total value op

/-- The fold of a level over the integers, when `apply` joins a value to the total and `value` gives
the values of operands and calls; nothing if a `RETURN` is reached. A group is folded by itself
first, and then its value is joined. -/
def fold (apply : Int → Int → Operator → Int) (value : Atom → Int) (total : Int) :
    LevelTree → Option Int
  | done => some total
  | atom negated operator a more =>
    more.fold apply value (joined apply operator total (signed negated (value a)))
  | ret _ _ => none
  | group negated operator inner more =>
    (inner.fold apply value 0).bind fun result =>
      more.fold apply value (joined apply operator total (signed negated result))

/-- No operator of the fold overflows, as far as the fold comes. -/
def QuotientsFit (value : Atom → Int) (total : Int) : LevelTree → Prop
  | done | ret _ _ => True
  | atom negated operator a more =>
    (∀ op ∈ operator, ¬ op.Overflows total (signed negated (value a))) ∧
      more.QuotientsFit value (joined Operator.exact operator total (signed negated (value a)))
  | group negated operator inner more =>
    inner.QuotientsFit value 0 ∧ ∀ result ∈ inner.fold Operator.exact value 0,
      (∀ op ∈ operator, ¬ op.Overflows total (signed negated result)) ∧
        more.QuotientsFit value (joined Operator.exact operator total (signed negated result))

end LevelTree

/-- The arithmetic of 32 bits over the integers: exact, but for the quotient that does not fit. -/
def Operator.checked (total value : Int) (op : Operator) : Int :=
  if op.Overflows total value then 0 else op.exact total value

namespace LevelTree

theorem joined_checked {operator : Option Operator} {total value : Int}
    (h : ∀ op ∈ operator, ¬ op.Overflows total value) :
    joined Operator.checked operator total value = joined Operator.exact operator total value := by
  cases operator with
  | none => rfl
  | some op => exact if_neg (h op rfl)

/-- Where no quotient overflows, the arithmetic of 32 bits is exact. -/
theorem fold_checked {tree : LevelTree} {value : Atom → Int} {total : Int}
    (h : tree.QuotientsFit value total) :
    tree.fold Operator.checked value total = tree.fold Operator.exact value total := by
  induction tree generalizing total with
  | done => rfl
  | atom negated operator a more ih =>
    obtain ⟨hstep, hmore⟩ := h
    rw [fold, fold, joined_checked hstep, ih hmore]
  | ret negated operator => rfl
  | group negated operator inner more ihinner ihmore =>
    obtain ⟨hinner, hbehind⟩ := h
    rw [fold, fold, ihinner hinner]
    refine Option.bind_congr fun result hresult => ?_
    obtain ⟨hstep, hmore⟩ := hbehind result hresult
    rw [joined_checked hstep, ihmore hmore]

end LevelTree

section Chains

open Written (factorValue HoldsLevels value_eq_foldTerms)

variable {σ : Type} [SignalHost σ] {around : Surroundings σ} {whole : Chain} {level last : Nat}

/-- The value of an atom as an integer. -/
def Atom.number (around : Surroundings σ) (atom : Atom) : Int := (atom.value around).value.toInt

theorem toInt_flipped (value : Int32) :
    (flipped value).toInt = LevelTree.signed true value.toInt := by
  have hzero : value.toInt = 0 ↔ value = 0 := Int32.toInt_inj (y := 0)
  rw [flipped, LevelTree.signed, if_pos rfl]
  simp only [hzero]
  split <;> rfl

theorem toInt_combined (operator : Option Operator) (negated : Bool) (total value : Int32) :
    (combined operator total (if negated then flipped value else value)).toInt =
      LevelTree.joined Operator.checked operator total.toInt
        (LevelTree.signed negated value.toInt) := by
  have hsigned : (if negated then flipped value else value).toInt =
      LevelTree.signed negated value.toInt := by
    cases negated with
    | false => rfl
    | true => exact toInt_flipped value
  cases operator with
  | none => exact hsigned
  | some op => rw [← hsigned]; exact Operator.toInt_apply _ _ op

/-- The terms of a level come to the fold of their tree over the integers. -/
theorem toInt_foldTerms (tree : LevelTree) (hlevel : level ≤ last)
    (hfit : last + tree.groups ≤ whole.length)
    (hholds : HoldsLevels whole last (last + tree.groups) (tree.terms level last))
    (total : Int32) :
    (foldTerms (factorValue around whole level) total
        (atLevel level (tree.terms level last))).value.map Int32.toInt =
      tree.fold Operator.checked (Atom.number around) total.toInt := by
  induction tree generalizing level last total with
  | done => rfl
  | atom negated operator a more ih =>
    have hmore : HoldsLevels whole last (last + more.groups) (more.terms level last) := by
      intro id hlow hhigh
      have hother : level ≠ id := by omega
      rw [hholds id hlow hhigh, LevelTree.terms, atLevel_cons_of_ne hother]
    rw [LevelTree.terms, atLevel_cons_self, LevelTree.fold, foldTerms, Noted.value_bind,
      Atom.number, ← toInt_combined]
    exact ih hlevel hfit hmore _
  | ret negated operator => rw [LevelTree.terms, atLevel_cons_self]; rfl
  | group negated operator inner more ihinner ihmore =>
    rw [LevelTree.groups] at hfit hholds
    obtain ⟨hwhole, hinner⟩ := holdsLevels_inner hlevel rfl hholds
    have hmore := holdsLevels_more hlevel rfl hholds
    have hgroup := ihinner (Nat.le_refl (last + 1)) (by omega) hinner 0
    rw [← factorValue_group hlevel (by omega) hwhole] at hgroup
    -- On the level of the marker the group leaves no term.
    rw [LevelTree.terms, atLevel_cons_self, atLevel_append, atLevel_inner_eq_nil hlevel,
      List.nil_append, foldTerms, Noted.value_bind, LevelTree.fold]
    cases hvalue : (factorValue around whole level (.group (last + 1))).value with
    | none =>
      rw [hvalue] at hgroup
      have hnone : inner.fold Operator.checked (Atom.number around) 0 = none := hgroup.symm
      rw [hnone]
      rfl
    | some value =>
      rw [hvalue] at hgroup
      have hsome : inner.fold Operator.checked (Atom.number around) 0 = some value.toInt :=
        hgroup.symm
      rw [hsome, Option.bind_some, ← toInt_combined]
      exact ihmore (by omega) (by omega) hmore _

theorem toInt_value_terms (tree : LevelTree) :
    (Chain.value around (tree.terms 0 0) 0).value.map Int32.toInt =
      tree.fold Operator.checked (Atom.number around) 0 := by
  have hfit := tree.groups_le 0 0
  rw [value_eq_foldTerms]
  exact toInt_foldTerms tree (Nat.le_refl 0) (by omega) (fun _ _ _ => rfl) 0

/-- The value of a chain that is read is the fold of its tree over the integers, whatever the text
and the surroundings. Every intermediate result is exact modulo `2 ^ 32`, but for the quotient of
the least number by minus one, which is zero; where no such quotient is met, all are exact. -/
theorem Chain.toInt_value_of_read {locals : List Text} {text : Text} {chain : Chain}
    (h : (Chain.read locals text).value = some chain) :
    (∃ tree : LevelTree, chain = tree.terms 0 0) ∧
      ∀ tree : LevelTree, chain = tree.terms 0 0 →
        ∀ {σ : Type} [SignalHost σ] (around : Surroundings σ),
          (Chain.value around chain 0).value.map Int32.toInt =
              tree.fold Operator.checked (Atom.number around) 0 ∧
            (tree.QuotientsFit (Atom.number around) 0 →
              (Chain.value around chain 0).value.map Int32.toInt =
                tree.fold Operator.exact (Atom.number around) 0) := by
  obtain ⟨tree, -, hterms, -⟩ := Chain.exists_tree h
  refine ⟨⟨tree, hterms⟩, ?_⟩
  rintro tree rfl σ _ around
  have hvalue : (Chain.value around (tree.terms 0 0) 0).value.map Int32.toInt =
      tree.fold Operator.checked (Atom.number around) 0 := toInt_value_terms tree
  exact ⟨hvalue, fun hfit => hvalue.trans (LevelTree.fold_checked hfit)⟩

end Chains

section Quotient

/-- One variable divided by another. -/
def quotientTree : LevelTree :=
  .atom false none (.operand (.slot 0))
    (.atom false (some .divide) (.operand (.slot 1)) .done)

theorem read_quotient : (Chain.read ["A".toList, "B".toList] "A / B".toList).value =
    some (quotientTree.terms 0 0) := by
  have hread : Chain.readWithin 6 ["A".toList, "B".toList] "A / B".toList =
      .done ⟨some (quotientTree.terms 0 0), []⟩ := rfl
  have hsame := (Chain.readWithin_eq (by decide)).symm.trans hread
  exact congrArg Noted.value (Option.some.inj hsame)

/-- With `-7` and `2` the quotient is cut off toward zero. -/
theorem Chain.toInt_value_of_read_quotient :
    (Chain.value (⟨.blank, [-7, 2]⟩ : Surroundings FixedSignal)
      (quotientTree.terms 0 0) 0).value.map Int32.toInt = some (-3) := by
  have hfit : quotientTree.QuotientsFit
      (Atom.number (⟨.blank, [-7, 2]⟩ : Surroundings FixedSignal)) 0 := by
    refine ⟨fun op hop => (by cases hop), fun op hop => ?_, trivial⟩
    obtain rfl := Option.some.inj hop
    decide +kernel
  obtain ⟨-, hvalue⟩ := Chain.toInt_value_of_read read_quotient
  have hexact := (hvalue quotientTree rfl (⟨.blank, [-7, 2]⟩ : Surroundings FixedSignal)).2 hfit
  rw [hexact]
  decide +kernel

/-- A quotient may be zero though its divisor is not: the least number by minus one. -/
theorem Chain.exists_quotient_zero : ¬ ∀ (locals : List Text) (text : Text) (chain : Chain),
    (Chain.read locals text).value = some chain →
      ∀ tree : LevelTree, chain = tree.terms 0 0 → ∀ around : Surroundings FixedSignal,
        (Chain.value around chain 0).value.map Int32.toInt =
          tree.fold Operator.exact (Atom.number around) 0 := by
  intro h
  have hexact := h _ _ _ read_quotient quotientTree rfl ⟨.blank, [Int32.minValue, -1]⟩
  rw [toInt_value_terms] at hexact
  exact absurd hexact (by decide +kernel)

end Quotient

end SignalScript
