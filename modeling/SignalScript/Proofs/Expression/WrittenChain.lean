import SignalScript.Proofs.Expression.WrittenAtom
import SignalScript.Expression.Chain
import SignalScript.Run.Value

/-!
# Written chains

Chains as their author writes them: terms joined by operators, some of them negated, some of them
groups in brackets that are chains themselves, with any number of spaces between the parts. A chain
is flattened into terms with levels, and it has a value of its own, folded from left to right with
each group evaluated before it is used.

## Main definitions

* `Written.Chain`, `Written.Factor`, `Written.Rest` — the tree, with its `text`
* `Written.Chain.terms` — the flat terms that the tree stands for
* `Written.Chain.value` — the value of the tree
-/

namespace SignalScript

open Text

namespace Written

/-- The words that are no names in a chain. -/
def chainWords : List Text := ["RETURN".toList, "NOT".toList]

/-- No operand of the atom outside brackets has a minus sign. -/
def Atom.isPlain {reserved locals : List Text} : Atom reserved locals → Bool
  | .operand o => o.isPlain
  | .call _ => true

mutual

/-- What a term of a chain contributes. -/
inductive Factor (locals : List Text)
  | atom (atom : Atom chainWords locals) (plain : atom.isPlain = true)
  /-- A chain in brackets, with the spaces at its ends. -/
  | group (indent : Nat) (chain : Chain locals) (gap : Nat)

/-- A chain; its first term may have an operator in front. -/
inductive Chain (locals : List Text)
  | mk (lead : Option (Operator × Nat)) (negation : Negation) (factor : Factor locals)
    (rest : Rest locals)

/-- The further terms of a chain, with the spaces in front of an operator and behind it. -/
inductive Rest (locals : List Text)
  | done
  | more (gap : Nat) (operator : Operator) (gap' : Nat) (negation : Negation)
    (factor : Factor locals) (rest : Rest locals)

end

/-- An operator in front of a term, with the spaces behind it. -/
def leadText : Option (Operator × Nat) → Text
  | none => []
  | some (op, gap) => op.symbol :: spaces gap

variable {locals : List Text}

mutual

/-- The text of a factor; a group stands in brackets. -/
def Factor.text : Factor locals → Text
  | .atom a _ => a.text
  | .group indent chain gap => '(' :: (spaces indent ++ (chain.text ++ spaces gap) ++ [')'])

/-- The text of a chain. -/
def Chain.text : Chain locals → Text
  | .mk lead negation factor rest => leadText lead ++ (negation.text ++ (factor.text ++ rest.text))

/-- The text of further terms, each behind its operator. -/
def Rest.text : Rest locals → Text
  | .done => []
  | .more gap operator gap' negation factor rest =>
    spaces gap ++
      (leadText (some (operator, gap')) ++ (negation.text ++ (factor.text ++ rest.text)))

end

/-! ### Flat terms -/

mutual

/-- The number of groups, those in groups included. -/
def Factor.groups : Factor locals → Nat
  | .atom _ _ => 0
  | .group _ chain _ => chain.groups + 1

/-- The number of groups in a chain, over all depths. -/
def Chain.groups : Chain locals → Nat
  | .mk _ _ factor rest => factor.groups + rest.groups

/-- The number of groups in further terms, over all depths. -/
def Rest.groups : Rest locals → Nat
  | .done => 0
  | .more _ _ _ _ factor rest => factor.groups + rest.groups

end

/-- What a term contributes, if its group gets level `id`. -/
def Factor.entry (id : Nat) : Factor locals → SignalScript.Factor
  | .atom a _ => .atom a.meaning
  | .group _ _ _ => .group id

mutual

/-- The terms inside a factor, when the levels up to `last` are taken. -/
def Factor.inner (last : Nat) : Factor locals → List Term
  | .atom _ _ => []
  | .group _ chain _ => chain.terms (last + 1) (last + 1)

/-- The terms of a chain of level `level` and of the groups in it, when the levels up to `last` are
taken. -/
def Chain.terms (level last : Nat) : Chain locals → List Term
  | .mk lead negation factor rest =>
    ⟨negation.isPresent, lead.map Prod.fst, level, factor.entry (last + 1)⟩ ::
      (factor.inner last ++ rest.terms level (last + factor.groups))

/-- Further terms of a chain of level `level` and the groups in them. The groups of a factor take as
many levels as it has, so the next one begins behind them. -/
def Rest.terms (level last : Nat) : Rest locals → List Term
  | .done => []
  | .more _ operator _ negation factor rest =>
    ⟨negation.isPresent, some operator, level, factor.entry (last + 1)⟩ ::
      (factor.inner last ++ rest.terms level (last + factor.groups))

end

/-! ### Values -/

section Values

variable {σ : Type} [SignalHost σ]

/-- The value of a factor behind a negation. -/
def Negation.apply (negation : Negation) (value : Int32) : Int32 :=
  if negation.isPresent then flipped value else value

mutual

/-- The value of a factor; a group is evaluated before it is used. -/
def Factor.value (around : Surroundings σ) : Factor locals → Asked Int32
  | .atom a _ => a.meaning.value around
  | .group _ chain _ => chain.value around

/-- The value of a chain, folded from left to right and starting at zero. -/
def Chain.value (around : Surroundings σ) : Chain locals → Asked Int32
  | .mk lead negation factor rest => do
    let value ← factor.value around
    rest.fold around (combined (lead.map Prod.fst) 0 (negation.apply value))

/-- The value after further terms. -/
def Rest.fold (around : Surroundings σ) (total : Int32) : Rest locals → Asked Int32
  | .done => pure total
  | .more _ operator _ negation factor rest => do
    let value ← factor.value around
    rest.fold around (operator.apply total (negation.apply value))

end

end Values

end Written

end SignalScript
