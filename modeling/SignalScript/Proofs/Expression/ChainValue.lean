import SignalScript.Proofs.Expression.ChainReading
import SignalScript.Signal.Fixed

/-!
# Values of written chains

The terms that a chain is flattened into have the value of the chain. Every group has a level
number that no other group has, so the terms of that level are the terms of that group.

## Main definitions

* `atLevel` — the terms of one level

## Main results

* `Written.value_terms` — the value of the flat terms is the value of the tree
* `Written.exists_read_value` — a chain is read from its text, and its value is that of the tree
-/

namespace SignalScript

open Text

/-- The terms of one level. -/
def atLevel (level : Nat) (terms : List Term) : List Term :=
  terms.filter fun term => term.level = level

section Levels

variable {level : Nat} {term : Term} {terms more : List Term}

@[simp] theorem atLevel_nil : atLevel level [] = [] := rfl

@[simp] theorem atLevel_append :
    atLevel level (terms ++ more) = atLevel level terms ++ atLevel level more :=
  List.filter_append _ _

theorem atLevel_cons_self {negated : Bool} {operator : Option Operator} {factor : Factor} :
    atLevel level (⟨negated, operator, level, factor⟩ :: terms) =
      ⟨negated, operator, level, factor⟩ :: atLevel level terms :=
  List.filter_cons_of_pos (by simp)

theorem atLevel_cons_of_ne (h : term.level ≠ level) :
    atLevel level (term :: terms) = atLevel level terms :=
  List.filter_cons_of_neg (by simpa using h)

/-- A level that no term has is empty. -/
theorem atLevel_eq_nil (h : ∀ term ∈ terms, term.level ≠ level) : atLevel level terms = [] :=
  List.filter_eq_nil_iff.mpr fun term hterm => by simpa using h term hterm

end Levels

namespace Written

variable {locals : List Text}

/-! ### The levels of flat terms -/

mutual

/-- Inside a factor, every level is one of its own groups. -/
theorem Factor.level_inner : (factor : Factor locals) → ∀ last : Nat,
    ∀ term ∈ factor.inner last, last < term.level ∧ term.level ≤ last + factor.groups
  | .atom _ _, _, _, hterm => by cases hterm
  | .group _ chain _, last, term, hterm => by
    rw [Factor.groups]
    rcases chain.level_terms (last + 1) (last + 1) term hterm with h | h <;> omega

/-- The terms of a chain have its own level or one that was taken for a group in it. -/
theorem Chain.level_terms : (chain : Chain locals) → ∀ level last : Nat,
    ∀ term ∈ chain.terms level last,
      term.level = level ∨ last < term.level ∧ term.level ≤ last + chain.groups
  | .mk lead negation factor rest, level, last, term, hterm => by
    rw [Chain.groups]
    rcases List.mem_cons.mp hterm with rfl | hterm
    · exact Or.inl rfl
    · rcases List.mem_append.mp hterm with hterm | hterm
      · have := factor.level_inner last term hterm
        omega
      · have := rest.level_terms level (last + factor.groups) term hterm
        omega

theorem Rest.level_terms : (rest : Rest locals) → ∀ level last : Nat,
    ∀ term ∈ rest.terms level last,
      term.level = level ∨ last < term.level ∧ term.level ≤ last + rest.groups
  | .done, _, _, _, hterm => by cases hterm
  | .more _ operator _ negation factor rest, level, last, term, hterm => by
    rw [Rest.groups]
    rcases List.mem_cons.mp hterm with rfl | hterm
    · exact Or.inl rfl
    · rcases List.mem_append.mp hterm with hterm | hterm
      · have := factor.level_inner last term hterm
        omega
      · have := rest.level_terms level (last + factor.groups) term hterm
        omega

end

mutual

/-- Every group has a term that stands for it. -/
theorem Factor.groups_le (factor : Factor locals) (last : Nat) :
    factor.groups ≤ (factor.inner last).length + 1 :=
  match factor with
  | .atom _ _ => Nat.zero_le _
  | .group _ chain _ => by
    have := chain.groups_le (last + 1) (last + 1)
    rw [Factor.groups, Factor.inner]
    omega

/-- A chain has no more groups than terms. -/
theorem Chain.groups_le (chain : Chain locals) (level last : Nat) :
    chain.groups ≤ (chain.terms level last).length :=
  match chain with
  | .mk lead negation factor rest => by
    have := factor.groups_le last
    have := rest.groups_le level (last + factor.groups)
    rw [Chain.groups, Chain.terms, List.length_cons, List.length_append]
    omega

theorem Rest.groups_le (rest : Rest locals) (level last : Nat) :
    rest.groups ≤ (rest.terms level last).length :=
  match rest with
  | .done => Nat.zero_le _
  | .more _ operator _ negation factor rest => by
    have := factor.groups_le last
    have := rest.groups_le level (last + factor.groups)
    rw [Rest.groups, Rest.terms, List.length_cons, List.length_append]
    omega

end

/-! ### Evaluation -/

section Evaluation

variable {σ : Type} [SignalHost σ] (around : Surroundings σ) (whole : SignalScript.Chain)

/-- What a term at level `level` of the whole chain contributes. -/
def factorValue (level : Nat) (factor : SignalScript.Factor) : Asked (Option Int32) :=
  match factor with
  | .atom atom => do
    let value ← atom.value around
    pure (some value)
  | .ret => pure none
  | .group id =>
    if level < id ∧ id ≤ whole.length then SignalScript.Chain.value around whole id
    else pure (some 0)

/-- The value of a level is folded over its own terms alone. -/
theorem value_eq_foldTerms (level : Nat) : SignalScript.Chain.value around whole level =
    foldTerms (factorValue around whole level) 0 (atLevel level whole) := by
  rw [SignalScript.Chain.value]
  rfl

/-- The terms of the levels above `last`, up to `upTo`, stand in one part of the whole chain. -/
def HoldsLevels (last upTo : Nat) (part : List Term) : Prop :=
  ∀ id, last < id → id ≤ upTo → atLevel id whole = atLevel id part

variable {around whole}

/-- The terms of a factor and those behind it have no level in common above `last`. -/
theorem HoldsLevels.split {level last : Nat} {term : Term} {factor : Factor locals}
    {rest : Rest locals} (hlevel : level ≤ last) (hterm : term.level = level)
    (h : HoldsLevels whole last (last + (factor.groups + rest.groups))
      (term :: (factor.inner last ++ rest.terms level (last + factor.groups)))) :
    HoldsLevels whole last (last + factor.groups) (factor.inner last) ∧
      HoldsLevels whole (last + factor.groups) (last + factor.groups + rest.groups)
        (rest.terms level (last + factor.groups)) := by
  refine ⟨fun id hid hupTo => ?_, fun id hid hupTo => ?_⟩
  · -- The levels of the factor are numbered first; the terms behind it use none of them.
    have hrest : atLevel id (rest.terms level (last + factor.groups)) = [] := by
      apply atLevel_eq_nil
      intro term hmem heq
      have := rest.level_terms level (last + factor.groups) term hmem
      omega
    rw [h id hid (by omega), atLevel_cons_of_ne (by omega), atLevel_append, hrest, List.append_nil]
  · -- Nor does the factor use the levels of the terms behind it.
    have hinner : atLevel id (factor.inner last) = [] := by
      apply atLevel_eq_nil
      intro term hmem heq
      have := factor.level_inner last term hmem
      omega
    rw [h id (by omega) (by omega), atLevel_cons_of_ne (by omega), atLevel_append, hinner,
      List.nil_append]

/-- The terms inside a factor are passed over on the level around it. -/
theorem foldTerms_link {level last : Nat} {negation : Negation} {operator : Option Operator}
    {factor : Factor locals} {rest : Rest locals} {total : Int32} (hlevel : level ≤ last)
    (hfactor : factorValue around whole level (factor.entry (last + 1)) =
      some <$> factor.value around)
    (hrest : ∀ total, foldTerms (factorValue around whole level) total
      (atLevel level (rest.terms level (last + factor.groups))) = some <$> rest.fold around total) :
    foldTerms (factorValue around whole level) total
        (atLevel level (⟨negation.isPresent, operator, level, factor.entry (last + 1)⟩ ::
          (factor.inner last ++ rest.terms level (last + factor.groups)))) =
      some <$> (do
        let value ← factor.value around
        rest.fold around (combined operator total (negation.apply value))) := by
  -- Inside the factor every level is above the one that is folded.
  have hinner : atLevel level (factor.inner last) = [] := by
    apply atLevel_eq_nil
    intro term hmem heq
    have := factor.level_inner last term hmem
    omega
  rw [atLevel_cons_self, atLevel_append, hinner, List.nil_append, foldTerms]
  simp only [hfactor, bind_map_left, map_bind, hrest, Negation.apply]

mutual

/-- A factor that was flattened has the value it is written with: its group is found at its level.
-/
theorem Factor.value_entry : (factor : Factor locals) → ∀ {level last : Nat}, level ≤ last →
    last + factor.groups ≤ whole.length →
    HoldsLevels whole last (last + factor.groups) (factor.inner last) →
    factorValue around whole level (factor.entry (last + 1)) = some <$> factor.value around
  | .atom a _, _, _, _, _, _ => (map_eq_pure_bind _ _).symm
  | .group indent chain gap, level, last, hlevel, hfit, hholds => by
    -- The level of the group is taken before those inside it.
    have hgroups : last + (Factor.group indent chain gap).groups = last + 1 + chain.groups := by
      rw [Factor.groups]
      omega
    rw [hgroups] at hfit hholds
    rw [Factor.entry, factorValue, if_pos ⟨by omega, by omega⟩]
    exact chain.value_atLevel (Nat.le_refl _) hfit (hholds (last + 1) (by omega) (by omega))
      fun id hid => hholds id (by omega)

/-- The value of a level that holds the terms of a chain is the value of that chain. -/
theorem Chain.value_atLevel : (chain : Chain locals) → ∀ {level last : Nat}, level ≤ last →
    last + chain.groups ≤ whole.length →
    atLevel level whole = atLevel level (chain.terms level last) →
    HoldsLevels whole last (last + chain.groups) (chain.terms level last) →
    SignalScript.Chain.value around whole level = some <$> chain.value around
  | .mk lead negation factor rest, level, last, hlevel, hfit, hwhole, hholds => by
    -- The induction is on the tree: each part owns a range of levels of the whole chain.
    obtain ⟨hinner, hbehind⟩ := hholds.split hlevel rfl
    rw [Chain.groups] at hfit
    rw [value_eq_foldTerms, hwhole]
    exact foldTerms_link hlevel (factor.value_entry hlevel (by omega) hinner)
      (rest.fold_atLevel (by omega) (by omega) hbehind)

/-- Further terms fold to what they are written for, from any running value. -/
theorem Rest.fold_atLevel : (rest : Rest locals) → ∀ {level last : Nat}, level ≤ last →
    last + rest.groups ≤ whole.length →
    HoldsLevels whole last (last + rest.groups) (rest.terms level last) →
    ∀ total, foldTerms (factorValue around whole level) total
      (atLevel level (rest.terms level last)) = some <$> rest.fold around total
  | .done, _, _, _, _, _, _ => rfl
  | .more gap operator gap' negation factor rest, level, last, hlevel, hfit, hholds, total => by
    obtain ⟨hinner, hbehind⟩ := hholds.split hlevel rfl
    rw [Rest.groups] at hfit
    exact foldTerms_link hlevel (factor.value_entry hlevel (by omega) hinner)
      (rest.fold_atLevel (by omega) (by omega) hbehind)

end

end Evaluation

/-- The value of the flat terms is the value of the tree. -/
theorem value_terms {σ : Type} [SignalHost σ] (around : Surroundings σ) (chain : Chain locals) :
    SignalScript.Chain.value around (chain.terms 0 0) 0 = some <$> chain.value around := by
  -- At level zero the whole chain is the part itself.
  have hfit := chain.groups_le 0 0
  exact chain.value_atLevel (Nat.le_refl 0) (by omega) rfl fun _ _ _ => rfl

/-- A chain is read from its text without a note, and its value is that of the tree, with the same
questions asked. -/
theorem exists_read_value (locals : List Text) (chain : Chain locals) (indent gap : Nat) :
    ∃ terms, SignalScript.Chain.read locals (spaces indent ++ (chain.text ++ spaces gap)) =
        pure (some terms) ∧
      ∀ {σ : Type} [SignalHost σ] (around : Surroundings σ),
        SignalScript.Chain.value around terms 0 = some <$> chain.value around :=
  ⟨chain.terms 0 0, read_chain chain indent gap, fun around => value_terms around chain⟩

/-- The name of a declared local variable does not always stand for it: an external variable of
that name hides it. -/
theorem not_value_of_declared : ¬ ∀ (locals : List Text) (place : Fin locals.length)
    (values : List Int32), locals.Nodup → isIdentifier (locals.get place) = true →
    locals.get place ∉ chainWords → values.length = locals.length →
    ∃ terms, SignalScript.Chain.read locals (locals.get place) = pure (some terms) ∧
      (SignalScript.Chain.value ⟨FixedSignal.blank, values⟩ terms 0).value =
        some (values[place]?.getD 0) := by
  intro h
  obtain ⟨terms, hread, hvalue⟩ := h ["STATE".toList] 0 [5] (by decide) rfl (by decide) rfl
  let name : Name chainWords ["STATE".toList] := .slot 0 rfl (by decide)
  let chain : Chain ["STATE".toList] :=
    .mk none .absent (.atom (.operand (.name none name)) rfl) .done
  have hterms : pure (some terms) = (pure (some (chain.terms 0 0)) : Checked _) :=
    hread.symm.trans (read_chain chain 0 0)
  obtain rfl := Option.some.inj (congrArg Noted.value hterms)
  rw [value_terms] at hvalue
  exact absurd hvalue (by decide)

end Written

end SignalScript
