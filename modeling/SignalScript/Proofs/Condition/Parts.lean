import SignalScript.Proofs.Condition.Bracket
import SignalScript.Proofs.Condition.Lifting
import SignalScript.Proofs.Condition.WrittenCondition
import SignalScript.Condition.Reading

/-!
# Parts of written conditions

Two passes over the text of a condition come before its tests are read. The first lifts the
compounds out, numbered from left to right; the second splits what is left, and finds the joins of
the condition and no others.

## Main results

* `Written.liftCompounds_text` — the compounds of a condition are lifted out of its text
* `Written.splitSeparators_lifted` — what is left is split at the joins of the condition
-/

namespace SignalScript

open Text

namespace Written

variable {locals : List Text}

/-! ### Brackets around tests -/

section Wrap

variable {text : Text}

theorem isTight_wrap (h : IsTight text) (layers : List (Nat × Nat)) :
    IsTight (wrap layers text) := by
  cases layers with
  | nil => exact h
  | cons layer layers => exact IsTight.brackets _

theorem isBalanced_wrap (h : IsBalanced text) (layers : List (Nat × Nat)) :
    IsBalanced (wrap layers text) := by
  induction layers with
  | nil => exact h
  | cons layer layers ih =>
    exact ((isBalanced_spaces _).append (ih.append (isBalanced_spaces _))).enclose

/-- Brackets around a text leave it solid. -/
theorem isSolid_wrap (h : IsSolid text) (layers : List (Nat × Nat)) :
    IsSolid (wrap layers text) := by
  induction layers with
  | nil => exact h
  | cons layer layers ih => exact isSolid_brackets ((ih.append_spaces _).pad _)

/-- All brackets around a text are taken off. -/
theorem stripBrackets_wrap (h : IsTight text) (hbalanced : IsBalanced text)
    (hopen : enclosed? text = none) (layers : List (Nat × Nat)) :
    stripBrackets (wrap layers text) = text := by
  induction layers with
  | nil =>
    refine stripBrackets_of_not_enclosed fun inner henclosed => ?_
    rw [wrap, hopen] at henclosed
    cases henclosed
  | cons layer layers ih =>
    obtain ⟨indent, gap⟩ := layer
    have hinner : IsBalanced (spaces indent ++ (wrap layers text ++ spaces gap)) :=
      (isBalanced_spaces _).append ((isBalanced_wrap hbalanced layers).append (isBalanced_spaces _))
    -- The first bracket is closed by the last, so nothing stands behind the pair.
    have henclosed := enclosed?_of_isBalanced hinner []
    rw [wrap, stripBrackets_of_enclosed henclosed, trim_spaces (isTight_wrap h layers), ih]

end Wrap

/-! ### Lifting -/

theorem lifts_atom (number : Nat) (atom : Atom conditionWords locals) :
    Lifts number atom.text atom.text [] := by
  cases atom with
  | operand o => exact .plain (Operand.not_mem_text rfl)
  | call c =>
    have hname : '(' ∉ c.function.name.toList :=
      (isWord_of_isIdentifier (isIdentifier_function c.function)).not_mem rfl
    have hgap : '(' ∉ spaces c.gap := not_mem_spaces (by decide) _
    -- The arguments of a call hold no separator, so its brackets stay.
    have hbrackets : Lifts number ('(' :: (c.inner ++ [')'])) ('(' :: (c.inner ++ [')'])) [] :=
      .pair c.isBalanced_inner
        (hasSeparator_eq_false ((isSolid_brackets c.isSolid_inner).noSeparator [] endsWord_nil))
    exact (Lifts.plain hname).append ((Lifts.plain hgap).append hbrackets)

/-- Nothing is lifted out of a test: a call has no join between its brackets. -/
theorem lifts_test (number : Nat) (test : Test locals) : Lifts number test.text test.text [] := by
  cases test with
  | single atom => exact lifts_atom number atom
  | compare left gap comparator gap' mark right bare =>
    have hcomparator : '(' ∉ comparator.symbol.toList := by cases comparator <;> decide
    have hmark : '(' ∉ markText mark := by
      cases mark with
      | none => exact List.not_mem_nil
      | some gap => simpa [markText] using not_mem_spaces (by decide) gap
    exact (lifts_atom number left).append ((Lifts.plain (not_mem_spaces (by decide) gap)).append
      ((Lifts.plain hcomparator).append ((Lifts.plain (not_mem_spaces (by decide) gap')).append
        ((Lifts.plain hmark).append (lifts_atom _ right)))))

/-- Nothing is lifted out of a test in brackets either. -/
theorem lifts_wrap (number : Nat) (layers : List (Nat × Nat)) (test : Test locals) :
    Lifts number (wrap layers test.text) (wrap layers test.text) [] := by
  cases layers with
  | nil => exact lifts_test number test
  | cons layer layers =>
    -- Brackets around a test hold no separator either; those inside are not looked at.
    have hinner : IsBalanced (spaces layer.1 ++ (wrap layers test.text ++ spaces layer.2)) :=
      (isBalanced_spaces _).append
        ((isBalanced_wrap test.isBalanced layers).append (isBalanced_spaces _))
    have hsolid := isSolid_wrap test.isSolid (layer :: layers)
    exact .pair hinner (hasSeparator_eq_false (hsolid.noSeparator [] endsWord_nil))

theorem not_mem_negation (negation : Negation) : '(' ∉ negation.text := by
  cases negation with
  | absent => exact List.not_mem_nil
  | mark gap => simpa [Negation.text] using not_mem_spaces (by decide) gap
  | word gap => simpa [Negation.text] using not_mem_spaces (by decide) gap

/-! ### Links -/

namespace Link

variable (link : Link)

/-- A link is read as its join. -/
theorem separator?_sign (rest : Text) :
    separator? (link.sign ++ rest) = some (link.join, rest) := by
  obtain ⟨before, join, isWord, after⟩ := link
  cases join <;> cases isWord <;> rfl

/-- A word in front of a separator ends there. -/
theorem endsWord_sign (rest : Text) : EndsWord (link.sign ++ rest) := by
  obtain ⟨before, join, isWord, after⟩ := link
  cases join <;> cases isWord <;> exact endsWord_cons rfl

/-- A separator has no brackets. -/
theorem bracketless : '(' ∉ link.text ∧ ')' ∉ link.text := by
  have hsign : '(' ∉ link.sign ∧ ')' ∉ link.sign := by
    obtain ⟨before, join, isWord, after⟩ := link
    cases join <;> cases isWord <;> exact ⟨by simp [sign], by simp [sign]⟩
  have hopen (gap : Nat) : '(' ∉ spaces gap := not_mem_spaces (by decide) gap
  have hclose (gap : Nat) : ')' ∉ spaces gap := not_mem_spaces (by decide) gap
  simp [text, hsign, hopen, hclose]

theorem isBalanced : IsBalanced link.text := .of_not_mem link.bracketless.1 link.bracketless.2

end Link

/-! ### Texts of conditions -/

/-- A segment begins and ends with no blank. -/
theorem Segment.isTight (segment : Segment locals) : IsTight segment.text := by
  cases segment with
  | test negation layers test => exact negation.isTight (isTight_wrap test.isTight layers)
  | compound negation indent first link second later gap =>
    exact negation.isTight (IsTight.brackets _)

/-- Further segments end a text as tightly as it begins. -/
theorem isTight_append_later {text : Text} (h : IsTight text) :
    (later : Later locals) → IsTight (text ++ later.text)
  | .done => by
    rw [Later.text, List.append_nil]
    exact h
  | .more link segment later => by
    rw [Later.text, ← List.append_assoc, ← List.append_assoc]
    exact isTight_append_later (h.append segment.isTight link.text) later

mutual

/-- The brackets of a segment are balanced. -/
theorem Segment.isBalanced : (segment : Segment locals) → IsBalanced segment.text
  | .test negation layers test => by
    rw [Segment.text]
    exact negation.isBalanced.append (isBalanced_wrap test.isBalanced layers)
  | .compound negation indent first link second later gap => by
    have hbody := first.isBalanced.append
      (link.isBalanced.append (second.isBalanced.append later.isBalanced))
    rw [Segment.text]
    exact negation.isBalanced.append
      ((isBalanced_spaces indent).append (hbody.append (isBalanced_spaces gap))).enclose

theorem Later.isBalanced : (later : Later locals) → IsBalanced later.text
  | .done => by
    rw [Later.text]
    exact .of_not_mem List.not_mem_nil List.not_mem_nil
  | .more link segment later => by
    rw [Later.text]
    exact link.isBalanced.append (segment.isBalanced.append later.isBalanced)

end

/-! ### What is lifted -/

/-- The compound of a segment is lifted out of it. -/
theorem Segment.lifts (number : Nat) (segment : Segment locals) :
    Lifts number segment.text (segment.lifted number) segment.compounds := by
  cases segment with
  | test negation layers test =>
    exact (Lifts.plain (not_mem_negation negation)).append (lifts_wrap _ layers test)
  | compound negation indent first link second later gap =>
    let body := first.text ++ (link.text ++ (second.text ++ later.text))
    have htight : IsTight body := isTight_append_later first.isTight (.more link second later)
    have hbalanced : IsBalanced (spaces indent ++ (body ++ spaces gap)) :=
      (isBalanced_spaces indent).append ((first.isBalanced.append
        (Later.isBalanced (.more link second later))).append (isBalanced_spaces gap))
    -- The join between the first two segments makes the brackets a compound.
    have hseparator :
        hasSeparator ('(' :: (spaces indent ++ (body ++ spaces gap) ++ [')'])) = true := by
      have hsign (rest : Text) : (separator? (link.sign ++ rest)).isSome = true := by
        rw [link.separator?_sign]
        rfl
      have hhas := hasSeparator_append (hsign (spaces link.after ++ (second.text ++ (later.text ++
        (spaces gap ++ [')']))))) ('(' :: (spaces indent ++ (first.text ++ spaces link.before)))
      simpa [body, Link.text] using hhas
    have hcompound : Lifts number _ _ _ := .compound hbalanced hseparator
    rw [trim_spaces htight] at hcompound
    exact (Lifts.plain (not_mem_negation negation)).append hcompound

/-- What is lifted out of further segments are their compounds, numbered from `number` on. -/
theorem Later.lifts (number : Nat) :
    (later : Later locals) → Lifts number later.text (later.lifted number) later.compounds
  | .done => by
    rw [Later.text, Later.lifted, Later.compounds]
    exact .plain List.not_mem_nil
  | .more link segment later => by
    rw [Later.text, Later.lifted, Later.compounds]
    exact (Lifts.plain link.bracketless.1).append
      ((segment.lifts number).append (later.lifts (number + segment.compounds.length)))

/-- The compounds of all segments are lifted, numbered from left to right. -/
theorem liftCompounds_text (first : Segment locals) (later : Later locals) :
    liftCompounds (first.text ++ later.text) =
      ⟨first.lifted 0 ++ later.lifted first.compounds.length,
        first.compounds ++ later.compounds⟩ := by
  have hfirst := first.lifts 0
  have hlater := later.lifts (0 + first.compounds.length)
  rw [(hfirst.append hlater).lift, Nat.zero_add]

/-! ### The parts between the joins -/

/-- The mark of a compound is solid. -/
theorem isSolid_compoundMark (number : Nat) : IsSolid (compoundMark number) := by
  have hword : IsWord (Decimal.writeNat number) :=
    ⟨Decimal.writeNat_ne_nil number, List.all_eq_true.mpr fun c hc =>
      isNameChar_of_isDigit (Decimal.isDigit_of_mem_writeNat hc)⟩
  have hdigits : IsSolid (Decimal.writeNat number) := by
    -- Digits spell no joining word.
    have hne {c : Char} {rest : Text} (hc : c.isDigit = false) :
        Decimal.writeNat number ≠ c :: rest := by
      intro h
      have hdigit := Decimal.isDigit_of_mem_writeNat (h.symm ▸ List.mem_cons_self)
      rw [hc] at hdigit
      cases hdigit
    exact .word hword (hne rfl) (hne rfl)
  have hclose : IsSolid [']'] := IsSolid.nil.cons (by decide) (by decide) (by decide) rfl
  have hinner := hdigits.append hclose fun _ _ => endsWord_cons rfl
  exact hinner.cons (by decide) (by decide) (by decide) rfl

theorem isSolid_negation {text : Text} (h : IsSolid text) (negation : Negation) :
    IsSolid (negation.text ++ text) := by
  cases negation with
  | absent => exact h
  | mark gap => exact (h.pad gap).cons (by decide) (by decide) (by decide) rfl
  | word gap =>
    -- `NOT` joins nothing, and the space behind it ends the word.
    have hword : IsSolid "NOT".toList := .word (by decide) (by decide) (by decide)
    exact hword.append (h.pad (gap + 1)) fun back _ => endsWord_cons rfl

/-- Without its compound, a segment holds no separator. -/
theorem Segment.isSolid_lifted (number : Nat) (segment : Segment locals) :
    IsSolid (segment.lifted number) := by
  cases segment with
  | test negation layers test =>
    exact isSolid_negation (isSolid_wrap test.isSolid layers) negation
  | compound negation indent first link second later gap =>
    exact isSolid_negation (isSolid_compoundMark number) negation

/-- A segment goes into the first part, up to the spaces in front of the next join. -/
theorem splitSeparators_lifted (number number' : Nat) (gap : Nat) (segment : Segment locals) :
    (later : Later locals) →
    splitSeparators (spaces gap ++ (segment.lifted number ++ later.lifted number')) =
      ⟨spaces gap ++ (segment.lifted number ++ spaces later.gap), later.parts number'⟩
  | .done => by
    have hsolid := (segment.isSolid_lifted number).pad gap
    rw [Later.lifted, ← List.append_assoc,
      splitSeparators_append (hsolid.noSeparator [] endsWord_nil), splitSeparators_nil]
    simp [Later.gap, Later.parts]
  | .more link next later => by
    have hsolid := ((segment.isSolid_lifted number).pad gap).append_spaces link.before
    -- The induction is on the further segments: the sign of the first of them ends the part.
    have hsign := link.endsWord_sign
      (spaces link.after ++ (next.lifted number' ++
        later.lifted (number' + next.compounds.length)))
    have htext : spaces gap ++
          (segment.lifted number ++ (Later.more link next later).lifted number') =
        (spaces gap ++ segment.lifted number ++ spaces link.before) ++ (link.sign ++
          (spaces link.after ++ (next.lifted number' ++
            later.lifted (number' + next.compounds.length)))) := by
      simp [Later.lifted, Link.text]
    rw [htext, splitSeparators_append (hsolid.noSeparator _ hsign),
      splitSeparators_separator (link.separator?_sign _), splitSeparators_lifted]
    simp [Later.gap, Later.parts]

end Written

end SignalScript
