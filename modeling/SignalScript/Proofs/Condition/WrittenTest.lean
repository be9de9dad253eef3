import SignalScript.Proofs.Condition.Separator
import SignalScript.Proofs.Expression.WrittenAtom
import SignalScript.Condition.Test
import SignalScript.Run.Truth

/-!
# Written tests

Tests as their author writes them: an operand or call by itself, or two of them compared, with any
number of spaces between the parts and a mark in front of the right side.

## Main definitions

* `Written.Test` — with its `text`, its `meaning` and its `truth`

## Main results

* `Written.Test.read_text` — the meaning is read back from the text
* `Written.Test.truth_meaning` — the outcome of what is read is that of the test
* `Written.Test.isSolid` — no separator begins in the text
-/

namespace SignalScript

open Text

namespace Written

/-- The words that are no names in a condition. -/
def conditionWords : List Text := ["AND".toList, "OR".toList, "NOT".toList]

/-- The atom has no mark. -/
def Atom.isBare {reserved locals : List Text} : Atom reserved locals → Bool
  | .operand o => o.mark.isNone
  | .call _ => true

/-- A test, with the spaces around its comparator and the mark of its right side. -/
inductive Test (locals : List Text)
  | single (atom : Atom conditionWords locals)
  | compare (left : Atom conditionWords locals) (gap : Nat) (comparator : Comparator) (gap' : Nat)
    (mark : Option Nat) (right : Atom conditionWords locals) (bare : right.isBare = true)

variable {locals : List Text}

namespace Test

/-- The text of a test. -/
def text : Test locals → Text
  | .single atom => atom.text
  | .compare left gap comparator gap' mark right _ =>
    left.text ++ (spaces gap ++ (comparator.symbol.toList ++
      (spaces gap' ++ (markText mark ++ right.text))))

/-- The test that the text means; spaces and marks mean nothing, and no side is negated. -/
def meaning : Test locals → SignalScript.Test
  | .single atom => .single ⟨false, atom.meaning⟩
  | .compare left _ comparator _ _ right _ =>
    .compare ⟨false, left.meaning⟩ comparator ⟨false, right.meaning⟩

/-- The outcome of a test: a value by itself holds if it is not zero. -/
def truth {σ : Type} [SignalHost σ] (around : Surroundings σ) : Test locals → Asked Bool
  | .single atom => do
    let value ← atom.meaning.value around
    pure (value ≠ 0)
  | .compare left _ comparator _ _ right _ => do
    let first ← left.meaning.value around
    let second ← right.meaning.value around
    pure (comparator.holds first second)

/-- The outcome of what is read is that of the test. -/
theorem truth_meaning {σ : Type} [SignalHost σ] (around : Surroundings σ) (test : Test locals) :
    test.meaning.truth around = test.truth around := by
  cases test <;> rfl

end Test

/-! ### Atoms are solid -/

section Solid

theorem isSolid_core (operand : Operand conditionWords locals) : IsSolid operand.core := by
  obtain ⟨word, hword, hfree, hcore⟩ := operand.exists_word
  have hsolid : IsSolid word :=
    .word hword (hfree _ (by decide) (by decide)) (hfree _ (by decide) (by decide))
  rcases hcore with hcore | ⟨hcore, -⟩
  · exact hcore ▸ hsolid
  · exact hcore ▸ hsolid.cons (by decide) (by decide) (by decide) rfl

/-- A mark in front of a solid text. -/
theorem isSolid_mark {text : Text} (h : IsSolid text) (mark : Option Nat) :
    IsSolid (markText mark ++ text) := by
  cases mark with
  | none => exact h
  | some gap => exact (h.pad gap).cons (by decide) (by decide) (by decide) rfl

theorem isSolid_arguments (arguments : List (Argument conditionWords locals)) :
    IsSolid (joinedBy [','] (arguments.map Argument.text)) := by
  have hargument (argument : Argument conditionWords locals) : IsSolid argument.text :=
    ((isSolid_mark (isSolid_core argument.operand) _).append_spaces _).pad _
  induction arguments with
  | nil => exact .nil
  | cons argument more ih =>
    cases more with
    | nil => exact hargument argument
    | cons next later =>
      have hcomma : IsSolid (',' :: joinedBy [','] ((next :: later).map Argument.text)) :=
        ih.cons (by decide) (by decide) (by decide) rfl
      have hjoined := (hargument argument).append hcomma fun _ _ => endsWord_cons rfl
      simpa [joinedBy] using hjoined

/-- A bracket behind a solid text. -/
theorem isSolid_close {text : Text} (h : IsSolid text) : IsSolid (text ++ [')']) :=
  h.append (IsSolid.nil.cons (by decide) (by decide) (by decide) rfl) fun _ _ => endsWord_cons rfl

/-- Brackets around a solid text. -/
theorem isSolid_brackets {text : Text} (h : IsSolid text) : IsSolid ('(' :: (text ++ [')'])) :=
  (isSolid_close h).cons (by decide) (by decide) (by decide) rfl

/-- No separator begins between the brackets of a call, or runs out of them. -/
theorem Call.isSolid_inner (call : Call conditionWords locals) : IsSolid call.inner :=
  (isSolid_arguments call.arguments).pad call.indent

/-- Atoms are solid. -/
theorem isSolid_atom (atom : Atom conditionWords locals) : IsSolid atom.text := by
  cases atom with
  | operand o => exact isSolid_mark (isSolid_core o) o.mark
  | call c =>
    have hname : IsSolid c.function.name.toList :=
      .word (isWord_of_isIdentifier (isIdentifier_function c.function))
        (function_ne c.function (by decide)) (function_ne c.function (by decide))
    apply hname.append ((isSolid_brackets c.isSolid_inner).pad c.gap)
    intro back _
    rw [List.append_assoc]
    exact EndsWord.spaces (endsWord_cons rfl) _

end Solid

/-! ### Atoms are no negations -/

section Heads

variable {back : Text}

/-- No operand is taken for a negation. -/
theorem negation_operand (operand : Operand conditionWords locals) (hback : EndsWord back) :
    negation (operand.text ++ back) = (false, operand.text ++ back) := by
  obtain ⟨word, hword, hfree, hcore⟩ := operand.exists_word
  rw [Operand.text]
  cases operand.mark with
  | some gap => rfl
  | none =>
    rcases hcore with hcore | ⟨hcore, -⟩
    · rw [hcore]
      exact negation_word hword (hfree _ (by decide) (by decide)) hback
    · rw [hcore]
      rfl

/-- No atom is read as a negation. -/
theorem negation_atom (atom : Atom conditionWords locals) (hback : EndsWord back) :
    negation (atom.text ++ back) = (false, atom.text ++ back) := by
  cases atom with
  | operand o => exact negation_operand o hback
  | call c =>
    rw [Atom.text, Call.text, List.append_assoc]
    refine negation_word (isWord_of_isIdentifier (isIdentifier_function c.function))
      (function_ne c.function (by decide)) ?_
    rw [List.append_assoc]
    exact EndsWord.spaces (endsWord_cons rfl) _

/-- An atom begins with a character of words, with a mark or with a minus sign. -/
theorem exists_head_of_atom {reserved : List Text} (atom : Atom reserved locals) :
    ∃ c rest, atom.text = c :: rest ∧ (c = '#' → atom.isBare = false) ∧
      Operand.isChar c = true := by
  cases atom with
  | operand o =>
    obtain ⟨c, rest, htext⟩ := List.exists_cons_of_ne_nil o.isTight_text.ne_nil
    refine ⟨c, rest, htext, ?_, Operand.isChar_of_mem_text (htext ▸ List.mem_cons_self)⟩
    -- A word begins with a character of words, which a mark is not.
    rintro rfl
    rw [Operand.text] at htext
    cases hmark : o.mark with
    | some gap => simp [Atom.isBare, hmark]
    | none =>
      rw [hmark] at htext
      obtain ⟨word, hword, -, hcore⟩ := o.exists_word
      obtain ⟨d, more, rfl, hd⟩ := hword.exists_cons
      rcases hcore with hcore | ⟨hcore, -⟩
      · rw [hcore] at htext
        exact absurd (List.cons.inj htext).1 (ne_of_isNameChar hd rfl)
      · rw [hcore] at htext
        exact absurd (List.cons.inj htext).1 (by decide)
  | call c =>
    obtain ⟨d, rest, hname, hd⟩ :=
      (isWord_of_isIdentifier (isIdentifier_function c.function)).exists_cons
    refine ⟨d, _, by rw [Atom.text, Call.text, hname]; rfl, ?_, by simp [Operand.isChar, hd]⟩
    rintro rfl
    cases hd

/-- The search for a comparator runs over atoms. -/
def isComparing (c : Char) : Bool := c = '>' || c = '<' || c = '=' || c = '!'

/-- Atoms hold no character of a comparator. -/
theorem not_isComparing_of_mem_atom {reserved : List Text} {atom : Atom reserved locals} {c : Char}
    (h : c ∈ atom.text) : isComparing c = false := by
  have hchar (hc : Operand.isChar c = true) : isComparing c = false := by
    apply Bool.eq_false_iff.mpr
    intro hcomparing
    simp only [isComparing, Bool.or_eq_true, decide_eq_true_eq] at hcomparing
    rcases hcomparing with ((rfl | rfl) | rfl) | rfl <;> cases hc
  cases atom with
  | operand o => exact hchar (Operand.isChar_of_mem_text h)
  | call call =>
    -- Besides the characters of operands, a call has its brackets and commas.
    by_cases hother : c = '(' ∨ c = ')' ∨ c = ','
    · rcases hother with rfl | rfl | rfl <;> rfl
    · simp only [not_or] at hother
      by_cases hc : Operand.isChar c = true
      · exact hchar hc
      · have hinner := call.not_mem_inner (Bool.eq_false_iff.mpr hc) hother.2.2
        have hname := isWord_of_isIdentifier (isIdentifier_function call.function)
        simp only [Atom.text, Call.text, List.mem_append, List.mem_cons, List.not_mem_nil,
          or_false, hinner, false_or] at h
        rcases h with h | h | h | h
        · have := hname.isNameChar h
          simp [Operand.isChar, this] at hc
        · simp [Operand.isChar, List.eq_of_mem_replicate h] at hc
        · exact absurd h hother.1
        · exact absurd h hother.2.1

end Heads

/-! ### Reading tests -/

section Reading

variable {text back : Text}

/-- A text without characters of comparators stands in front of the first one. -/
theorem cutComparator?_append (h : ∀ c ∈ text, isComparing c = false) :
    cutComparator? (text ++ back) =
      (cutComparator? back).map fun found => { found with before := text ++ found.before } := by
  induction text with
  | nil => exact Option.map_id.symm ▸ rfl
  | cons c rest ih =>
    have hc := h c List.mem_cons_self
    have hno {d : Char} {more : Text} (heq : c :: (rest ++ back) = d :: more)
        (hd : isComparing d = true) : False := by
      obtain ⟨rfl, -⟩ := List.cons.inj heq
      rw [hc] at hd
      cases hd
    -- A character that begins no comparator is passed over.
    have hstep : cutComparator? (c :: (rest ++ back)) =
        (cutComparator? (rest ++ back)).map fun found =>
          { found with before := c :: found.before } := by
      rw [cutComparator?.eq_def]
      split <;> first | exact (hno ‹_› rfl).elim | cases ‹_ :: _ = _› <;> rfl
    rw [List.cons_append, hstep, ih fun d hd => h d (List.mem_cons_of_mem _ hd)]
    cases cutComparator? back <;> rfl

/-- A comparator is found as it is written; an equals sign behind it would make it another one. -/
theorem cutComparator?_symbol (comparator : Comparator) {rest : Text}
    (h : rest.head? ≠ some '=') :
    cutComparator? (comparator.symbol.toList ++ rest) = some ⟨[], some comparator, rest⟩ := by
  -- `>` and `<` would take an equals sign behind them.
  have hsingle {c : Char} {more : Text} (hrest : rest = c :: more) : c ≠ '=' := by
    rintro rfl
    exact h (by rw [hrest]; rfl)
  cases comparator with
  | greaterEqual => rfl
  | lessEqual => rfl
  | equal => rfl
  | unequal => rfl
  | greater =>
    cases hrest : rest with
    | nil => rfl
    | cons c more => simp [Comparator.symbol, cutComparator?, hsingle hrest]
  | less =>
    cases hrest : rest with
    | nil => rfl
    | cons c more => simp [Comparator.symbol, cutComparator?, hsingle hrest]

/-- A side is read as its atom, without negation. -/
theorem read_side (atom : Atom conditionWords locals) (indent gap : Nat) :
    Side.read locals (spaces indent ++ (atom.text ++ spaces gap)) =
      pure ⟨false, atom.meaning⟩ := by
  have hnegation : negation atom.text = (false, atom.text) := by
    simpa using negation_atom atom endsWord_nil
  rw [Side.read, trim_spaces atom.isTight]
  simp only [hnegation, atom.isTight.trim_eq, atom.isTight.isEmpty_eq, Bool.false_eq_true,
    ↓reduceIte, atom.read_text, pure_bind]
  rfl

/-- The mark of a right side goes, with the spaces behind it. -/
theorem exists_dropLeading_mark (mark : Option Nat) (atom : Atom conditionWords locals)
    (hbare : atom.isBare = true) (indent : Nat) :
    ∃ gap, dropLeading '#' (trim (spaces indent ++ (markText mark ++ atom.text))) =
      spaces gap ++ (atom.text ++ spaces 0) := by
  have htight : IsTight (markText mark ++ atom.text) := by
    cases mark with
    | none => exact atom.isTight
    | some gap =>
      have hmark : IsTight ['#'] := IsTight.single rfl
      simpa [markText] using hmark.append atom.isTight (spaces gap)
  have htrim :
      trim (spaces indent ++ (markText mark ++ atom.text)) = markText mark ++ atom.text := by
    simpa using trim_spaces htight indent 0
  rw [htrim]
  cases mark with
  | none =>
    refine ⟨0, ?_⟩
    obtain ⟨c, rest, htext, hhash, -⟩ := exists_head_of_atom atom
    have hc : c ≠ '#' := by
      intro h
      rw [hhash h] at hbare
      cases hbare
    simp [markText, htext, dropLeading, hc]
  | some gap => exact ⟨gap, by simp [markText, dropLeading]⟩

/-- A test is read as what it means, and nothing is noted. -/
theorem Test.read_text (test : Test locals) :
    SignalScript.Test.read locals test.text = pure test.meaning := by
  have hatom (atom : Atom conditionWords locals) : ∀ c ∈ atom.text, isComparing c = false :=
    fun _ hc => not_isComparing_of_mem_atom hc
  cases test with
  | single atom =>
    -- An operand or call by itself holds no comparator at all.
    have hnone : cutComparator? atom.text = none := by
      rw [← List.append_nil atom.text, cutComparator?_append (hatom atom)]
      rfl
    have hside := read_side atom 0 0
    rw [spaces_zero, List.append_nil, List.nil_append] at hside
    rw [SignalScript.Test.read, Test.text, hnone]
    simp only [hside, pure_bind]
    rfl
  | compare left gap comparator gap' mark right bare =>
    -- What follows the comparator does not begin with an equals sign that would make it longer.
    have hequals : (spaces gap' ++ (markText mark ++ right.text)).head? ≠ some '=' := by
      cases gap' with
      | succ gap' => exact fun h => by cases h
      | zero =>
        cases mark with
        | some gap => exact fun h => by cases h
        | none =>
          obtain ⟨c, rest, htext, -, hc⟩ := exists_head_of_atom right
          rw [markText, spaces_zero, List.nil_append, List.nil_append, htext]
          intro h
          obtain rfl := Option.some.inj h
          cases hc
    -- Nothing on the left looks like a comparator, so the one written is the first.
    have hleft : ∀ c ∈ left.text ++ spaces gap, isComparing c = false := by
      intro c hc
      rcases List.mem_append.mp hc with hc | hc
      · exact hatom left c hc
      · rw [List.eq_of_mem_replicate hc]
        rfl
    have hcut : cutComparator? (Test.compare left gap comparator gap' mark right bare).text =
        some ⟨left.text ++ spaces gap, some comparator,
          spaces gap' ++ (markText mark ++ right.text)⟩ := by
      rw [Test.text, ← List.append_assoc, cutComparator?_append hleft,
        cutComparator?_symbol comparator hequals]
      simp
    obtain ⟨pad, hright⟩ := exists_dropLeading_mark mark right bare gap'
    have hside : Side.read locals (left.text ++ spaces gap) = pure ⟨false, left.meaning⟩ :=
      read_side left 0 gap
    rw [SignalScript.Test.read, hcut]
    simp only [FoundComparator.read, hright, hside, read_side, pure_bind]
    rfl

end Reading

/-! ### Tests are solid -/

/-- Tests are solid. -/
theorem Test.isSolid (test : Test locals) : IsSolid test.text := by
  cases test with
  | single atom => exact isSolid_atom atom
  | compare left gap comparator gap' mark right bare =>
    have hright := (isSolid_mark (isSolid_atom right) mark).pad gap'
    -- The signs of a comparator end the word in front of them.
    have hsign {c : Char} {text : Text} (h : IsSolid text) (hc : isComparing c = true) :
        IsSolid (c :: text) := by
      have hne {d : Char} (hd : isComparing d = false) : c ≠ d := by
        rintro rfl
        rw [hc] at hd
        cases hd
      refine h.cons (hne rfl) (hne rfl) (hne rfl) ?_
      simp only [isComparing, Bool.or_eq_true, decide_eq_true_eq] at hc
      rcases hc with ((rfl | rfl) | rfl) | rfl <;> rfl
    have hcomparator : IsSolid (comparator.symbol.toList ++
        (spaces gap' ++ (markText mark ++ right.text))) := by
      cases comparator with
      | greater => exact hsign hright rfl
      | greaterEqual => exact hsign (hsign hright rfl) rfl
      | less => exact hsign hright rfl
      | lessEqual => exact hsign (hsign hright rfl) rfl
      | equal => exact hsign (hsign hright rfl) rfl
      | unequal => exact hsign (hsign hright rfl) rfl
    apply (isSolid_atom left).append (hcomparator.pad gap)
    intro back _
    rw [List.append_assoc]
    exact EndsWord.spaces (by cases comparator <;> exact endsWord_cons rfl) _

/-- A test begins and ends with no blank. -/
theorem Test.isTight (test : Test locals) : IsTight test.text := by
  cases test with
  | single atom => exact atom.isTight
  | compare left gap comparator gap' mark right bare =>
    have htight := left.isTight.append right.isTight (spaces gap ++ (comparator.symbol.toList ++
      (spaces gap' ++ markText mark)))
    simpa [Test.text] using htight

/-- The brackets of a test are balanced. -/
theorem Test.isBalanced (test : Test locals) : IsBalanced test.text := by
  cases test with
  | single atom => exact atom.isBalanced
  | compare left gap comparator gap' mark right bare =>
    have hcomparator : IsBalanced comparator.symbol.toList := by
      cases comparator <;> exact .of_not_mem (by decide) (by decide)
    have hmark : IsBalanced (markText mark) := by
      cases mark with
      | none => exact .of_not_mem List.not_mem_nil List.not_mem_nil
      | some gap =>
        have hsign : IsBalanced ['#'] := .of_not_mem (by decide) (by decide)
        exact hsign.append (isBalanced_spaces gap)
    exact left.isBalanced.append ((isBalanced_spaces gap).append (hcomparator.append
      ((isBalanced_spaces gap').append (hmark.append right.isBalanced))))

/-- No test is read as a negation. -/
theorem Test.negation_text (test : Test locals) :
    negation test.text = (false, test.text) := by
  cases test with
  | single atom =>
    simpa [Test.text] using negation_atom atom endsWord_nil
  | compare left gap comparator gap' mark right bare =>
    refine negation_atom left (EndsWord.spaces ?_ gap)
    cases comparator <;> exact endsWord_cons rfl

/-- No test begins with a bracket. -/
theorem Test.exists_head (test : Test locals) :
    ∃ c rest, test.text = c :: rest ∧ Operand.isChar c = true := by
  cases test with
  | single atom =>
    obtain ⟨c, rest, htext, -, hc⟩ := exists_head_of_atom atom
    exact ⟨c, rest, htext, hc⟩
  | compare left gap comparator gap' mark right bare =>
    obtain ⟨c, rest, htext, -, hc⟩ := exists_head_of_atom left
    exact ⟨c, _, by rw [Test.text, htext]; rfl, hc⟩

end Written

end SignalScript
