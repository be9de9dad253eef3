import SignalScript.Expression.Operand
import SignalScript.Text.Bracket

/-!
# Reading chains

A chain is read term by term. A term is an optional operator, an optional negation, and either a
bracketed group or the text up to the next operator that stands outside brackets. A group gets
the next free level number and is read before the text behind it. `RETURN` ends the whole chain;
whatever follows it, on its own level or on one around it, is ignored and noted once. A chain
with an error yields nothing.

## Main definitions

* `TermHead`, `termHead` — operator and negation in front of a term
* `splitToken` — the text up to the next operator outside brackets
* `readLevel` — the terms of one level and of the groups in it
* `Chain.read` — the chain that a text spells

## Main results

* `length_termHead_le`, `splitToken_append` — reading a term consumes it and nothing else
-/

namespace SignalScript

/-- A leading operator, and what follows it without blanks in front. -/
def leadingOperator (text : Text) : Option Operator × Text :=
  match text with
  | [] => (none, [])
  | c :: rest =>
    match Operator.ofChar? c with
    | some op => (some op, Text.trimStart rest)
    | none => (none, text)

/-- What stands in front of a term, and the text from the term on. -/
structure TermHead where
  operator : Option Operator
  negated : Bool
  rest : Text
  deriving DecidableEq, Repr

/-- Takes operator and negation off a text. -/
def termHead (text : Text) : TermHead :=
  let (operator, behind) := leadingOperator text
  let (negated, rest) := Text.negation behind
  ⟨operator, negated, rest⟩

theorem length_leadingOperator_le (text : Text) :
    (leadingOperator text).2.length ≤ text.length := by
  unfold leadingOperator
  split
  · exact Nat.le_refl _
  · split
    · exact Nat.le_trans (Text.length_trimStart_le _) (Nat.le_succ _)
    · exact Nat.le_refl _

theorem length_termHead_le (text : Text) : (termHead text).rest.length ≤ text.length :=
  Nat.le_trans (Text.length_negation_le _) (length_leadingOperator_le _)

/-- The number of brackets opened less the number closed, after one more character. -/
def depthAfter (depth : Int) (c : Char) : Int :=
  if c = '(' then depth + 1 else if c = ')' then depth - 1 else depth

/-- The text up to the next operator outside brackets, and the text from there on, when `depth`
brackets are open. -/
def splitToken (depth : Int) : Text → Text × Text
  | [] => ([], [])
  | c :: rest =>
    if depthAfter depth c = 0 ∧ Operator.isSymbol c then ([], c :: rest)
    else
      let (token, after) := splitToken (depthAfter depth c) rest
      (c :: token, after)

/-- Nothing is lost where a token ends. -/
theorem splitToken_append (depth : Int) (text : Text) :
    (splitToken depth text).1 ++ (splitToken depth text).2 = text := by
  induction text generalizing depth with
  | nil => rfl
  | cons c rest ih =>
    simp only [splitToken]
    split
    · rfl
    · rw [List.cons_append, ih]

/-- How the reading of a level ended. -/
inductive Ending
  /-- At the end of its text. -/
  | complete
  /-- At a `RETURN`; text ignored behind it may have been noted already. -/
  | returned (reported : Bool)
  deriving DecidableEq, Repr

/-- The terms of a level and of the groups in it. -/
structure Level where
  terms : Chain
  /-- The highest level number in use. -/
  last : Nat
  ending : Ending
  deriving DecidableEq, Repr

/-- Notes text that a `RETURN` leaves unread, unless that has been noted before. -/
def endReturned (source rest : Text) (reported : Bool) : Checked Ending :=
  if rest.isEmpty || reported then pure (.returned reported)
  else do
    note (.textAfterReturn source)
    pure (.returned true)

/-- The text begins with a character that is no operator. -/
def startsBare : Text → Bool
  | [] => false
  | c :: _ => !Operator.isSymbol c

/-- Reads the terms of level `level` from a text without blanks at its ends, when the levels up
to `last` are taken. `source` is the text of the whole chain, for the notes. -/
def readLevel (locals : List Text) (source : Text) (level last : Nat) (text : Text) :
    Checked (Option Level) :=
  if text.isEmpty then pure (some ⟨[], last, .complete⟩)
  else
    let head := termHead text
    match _hgroup : Text.enclosed? head.rest with
    | some (inner, behind) => do
      let id := last + 1
      let marker : Term := ⟨head.negated, head.operator, level, .group id⟩
      let after := Text.trimStart behind
      -- The terms of a group stand right behind the marker of their level.
      match ← readLevel locals source id id (Text.trim inner) with
      | none => pure none
      | some group =>
        match group.ending with
        | .returned reported => do
          -- A `RETURN` in a group ends the levels around it as well.
          let ending ← endReturned source after reported
          pure (some ⟨marker :: group.terms, group.last, ending⟩)
        | .complete =>
          if startsBare after then do
            note (.missingOperator source)
            pure none
          else do
            let more ← readLevel locals source level group.last after
            pure (more.map fun m => { m with terms := marker :: group.terms ++ m.terms })
    | none =>
      -- A bracket in front of the term that no other bracket closes.
      if head.rest.head? = some '(' then do
        note (.unmatchedBrackets source)
        pure none
      else
        let split := splitToken 0 head.rest
        let token := Text.trim split.1
        if _htoken : token.isEmpty then do
          note (.emptyTerm source)
          pure none
        else if token = "RETURN".toList then do
          let ending ← endReturned source (Text.trim split.2) false
          pure (some ⟨[⟨head.negated, head.operator, level, .ret⟩], last, ending⟩)
        else do
          match ← Atom.read locals token with
          | none => pure none
          | some atom =>
            let more ← readLevel locals source level last split.2
            pure (more.map fun m =>
              { m with terms := ⟨head.negated, head.operator, level, .atom atom⟩ :: m.terms })
termination_by text.length
decreasing_by
  · have := Text.enclosed?_length _hgroup
    have : head.rest.length ≤ text.length := length_termHead_le text
    have : List.length (Text.trim inner) ≤ inner.length := Text.length_trim_le inner
    omega
  · have := Text.enclosed?_length _hgroup
    have : head.rest.length ≤ text.length := length_termHead_le text
    have : List.length (Text.trimStart behind) ≤ behind.length := Text.length_trimStart_le behind
    omega
  · have happend := congrArg List.length (splitToken_append 0 (termHead text).rest)
    have := length_termHead_le text
    have : (splitToken 0 (termHead text).rest).1 ≠ [] := by
      intro h
      exact _htoken (by simp [token, split, head, h, Text.trim, Text.trimStart, Text.trimEnd])
    have := List.length_pos_iff.mpr this
    simp only [List.length_append] at happend
    omega

/-- The chain that a text spells, or nothing if it has an error, which is noted. -/
def Chain.read (locals : List Text) (text : Text) : Checked (Option Chain) :=
  if text.count '(' ≠ text.count ')' then do
    note (.unmatchedBrackets text)
    pure none
  else do
    let level ← readLevel locals text 0 0 (Text.trim text)
    pure (level.map Level.terms)

end SignalScript
