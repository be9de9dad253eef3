import SignalScript.Proofs.Condition.WrittenTest

/-!
# Written conditions

Conditions as their author writes them: segments joined by `AND` and `OR` in either spelling, each
of them a test or a compound, negated or not. A test may stand in any number of brackets; a compound
stands in one pair and holds at least one join. The truth of a condition is folded strictly from
left to right, and a compound is a condition of its own.

## Main definitions

* `Written.Segment`, `Written.Segments` — the tree, with its `text`
* `Written.Segments.items` — the flat elements that the tree stands for
* `Written.Segments.truth` — the truth of the tree
-/

namespace SignalScript

open Text

namespace Written

/-- A join in one of its two spellings, with the spaces in front of it and behind it. Those that the
word needs on both sides come on top. -/
structure Link where
  before : Nat
  join : Join
  isWord : Bool
  after : Nat

namespace Link

/-- The separator without the spaces around it. -/
def sign (link : Link) : Text :=
  match link.join, link.isWord with
  | .and, false => "&&".toList
  | .or, false => "||".toList
  | .and, true => " AND ".toList
  | .or, true => " OR ".toList

/-- The separator with the spaces around it. -/
def text (link : Link) : Text := spaces link.before ++ (link.sign ++ spaces link.after)

end Link

/-- A text in pairs of brackets, with the spaces at the ends of each, from the outermost to the
innermost. -/
def wrap : List (Nat × Nat) → Text → Text
  | [], text => text
  | (indent, gap) :: layers, text =>
    '(' :: (spaces indent ++ (wrap layers text ++ spaces gap) ++ [')'])

variable {locals : List Text}

mutual

/-- A part of a condition between two joins. -/
inductive Segment (locals : List Text)
  | test (negation : Negation) (layers : List (Nat × Nat)) (test : Test locals)
  /-- Segments in brackets, at least two of them. -/
  | compound (negation : Negation) (indent : Nat) (first : Segment locals) (link : Link)
    (second : Segment locals) (later : Later locals) (gap : Nat)

/-- Further segments, with the join in front of each. -/
inductive Later (locals : List Text)
  | done
  | more (link : Link) (segment : Segment locals) (later : Later locals)

end

/-- A condition. -/
structure Segments (locals : List Text) where
  first : Segment locals
  later : Later locals

mutual

/-- The text of a segment. Brackets around a single test stand in layers, those of a compound hold
its segments. -/
def Segment.text : Segment locals → Text
  | .test negation layers test => negation.text ++ wrap layers test.text
  | .compound negation indent first link second later gap =>
    negation.text ++ '(' :: (spaces indent ++
      ((first.text ++ (link.text ++ (second.text ++ later.text))) ++ spaces gap) ++ [')'])

/-- The text of further segments, from the first join on. -/
def Later.text : Later locals → Text
  | .done => []
  | .more link segment later => link.text ++ (segment.text ++ later.text)

end

/-- The text of a condition. -/
def Segments.text (segments : Segments locals) : Text :=
  segments.first.text ++ segments.later.text

/-! ### Elements -/

/-- The element that a negation is. -/
def Negation.items (negation : Negation) : List ConditionItem :=
  if negation.isPresent then [.negation] else []

mutual

/-- The elements of a segment. -/
def Segment.items : Segment locals → List ConditionItem
  | .test negation _ test => negation.items ++ [.test test.meaning]
  | .compound negation _ first link second later _ =>
    negation.items ++ [.group (first.items ++ (.join link.join :: (second.items ++ later.items)))]

/-- The elements of further segments, each behind its join. -/
def Later.items : Later locals → List ConditionItem
  | .done => []
  | .more link segment later => .join link.join :: (segment.items ++ later.items)

end

/-- The elements of a condition. -/
def Segments.items (segments : Segments locals) : Condition :=
  segments.first.items ++ segments.later.items

/-! ### Truth -/

section Truth

variable {σ : Type} [SignalHost σ]

/-- The outcome behind a negation. -/
def Negation.invert (negation : Negation) (outcome : Bool) : Bool :=
  if negation.isPresent then !outcome else outcome

/-- Two outcomes joined. -/
def joined (first second : Bool) : Join → Bool
  | .and => first && second
  | .or => first || second

mutual

/-- The outcome of a segment. A negation inverts it and nothing else. -/
def Segment.truth (around : Surroundings σ) : Segment locals → Asked Bool
  | .test negation _ test => do
    let outcome ← test.truth around
    pure (negation.invert outcome)
  | .compound negation _ first link second later _ => do
    let outcome ← first.truth around
    let next ← second.truth around
    let outcome ← later.fold around (joined outcome next link.join)
    pure (negation.invert outcome)

/-- The outcome after further segments. -/
def Later.fold (around : Surroundings σ) (outcome : Bool) : Later locals → Asked Bool
  | .done => pure outcome
  | .more link segment later => do
    let next ← segment.truth around
    later.fold around (joined outcome next link.join)

end

/-- The truth of a condition, folded from left to right. -/
def Segments.truth (around : Surroundings σ) (segments : Segments locals) : Asked Bool := do
  let outcome ← segments.first.truth around
  segments.later.fold around outcome

end Truth

/-! ### What is lifted -/

/-- A segment without its compound, which gets number `number`. -/
def Segment.lifted (number : Nat) : Segment locals → Text
  | .test negation layers core => negation.text ++ wrap layers core.text
  | .compound negation _ _ _ _ _ _ => negation.text ++ compoundMark number

/-- The text inside the brackets of a compound, if the segment is one. -/
def Segment.compounds : Segment locals → List Text
  | .test _ _ _ => []
  | .compound _ _ first link second later _ =>
    [first.text ++ (link.text ++ (second.text ++ later.text))]

/-- Further segments without their compounds, numbered from `number`. -/
def Later.lifted (number : Nat) : Later locals → Text
  | .done => []
  | .more link segment later =>
    link.text ++ (segment.lifted number ++ later.lifted (number + segment.compounds.length))

/-- The texts inside the brackets of all compounds among further segments, in order. -/
def Later.compounds : Later locals → List Text
  | .done => []
  | .more _ segment later => segment.compounds ++ later.compounds

/-- The spaces in front of the first join. -/
def Later.gap : Later locals → Nat
  | .done => 0
  | .more link _ _ => link.before

/-- The parts that further segments are split into. -/
def Later.parts (number : Nat) : Later locals → List (Join × Text)
  | .done => []
  | .more link segment later =>
    (link.join, spaces link.after ++ (segment.lifted number ++ spaces later.gap)) ::
      later.parts (number + segment.compounds.length)

end Written

end SignalScript
