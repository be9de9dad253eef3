import SignalScript.Proofs.Fuel.Procedure
import SignalScript.Proofs.Expression.AssignmentForm
import SignalScript.Proofs.Text.Cutting

/-!
# Chains within fuel

A chain is read into its groups and on behind its terms, always in a shorter text.

## Main definitions

* `levelReading` — reads a level, when someone else reads the groups and what follows a term
* `Assignment.readWithin` — reads an assignment within some fuel

## Main results

* `readLevelWithin_eq` — fuel above the length of a text is enough to read it
* `Assignment.readWithin_eq` — fuel above the length of a statement is enough to read it
-/

namespace SignalScript

section Levels

variable (locals : List Text) (source : Text)

/-- Reads a level, when `self` reads the groups in it and the text behind a term. A call holds the
level, the levels taken, and the text. -/
def levelReading : Procedure Cause (Nat × Nat × Text) fun _ => Option Level :=
  fun self (level, last, text) =>
    if text.isEmpty then pure (some ⟨[], last, .complete⟩)
    else
      let head := termHead text
      match Text.enclosed? head.rest with
      | some (inner, behind) => do
        let id := last + 1
        let marker : Term := ⟨head.negated, head.operator, level, .group id⟩
        let after := Text.trimStart behind
        match ← self (id, id, Text.trim inner) with
        | none => pure none
        | some group =>
          match group.ending with
          | .returned reported => do
            let ending ← Limited.done (endReturned source after reported)
            pure (some ⟨marker :: group.terms, group.last, ending⟩)
          | .complete =>
            if startsBare after then do
              Limited.done (note (.missingOperator source))
              pure none
            else do
              let more ← self (level, group.last, after)
              pure (more.map fun m => { m with terms := marker :: group.terms ++ m.terms })
      | none =>
        if head.rest.head? = some '(' then do
          Limited.done (note (.unmatchedBrackets source))
          pure none
        else
          let split := splitToken 0 head.rest
          let token := Text.trim split.1
          if token.isEmpty then do
            Limited.done (note (.emptyTerm source))
            pure none
          else if token = "RETURN".toList then do
            let ending ← Limited.done (endReturned source (Text.trim split.2) false)
            pure (some ⟨[⟨head.negated, head.operator, level, .ret⟩], last, ending⟩)
          else do
            match ← Limited.done (Atom.read locals token) with
            | none => pure none
            | some atom =>
              let more ← self (level, last, split.2)
              pure (more.map fun m =>
                { m with terms := ⟨head.negated, head.operator, level, .atom atom⟩ :: m.terms })

/-- The terms of a level of a chain, read within some fuel. -/
def readLevelWithin (fuel level last : Nat) (text : Text) : Limited Cause (Option Level) :=
  (levelReading locals source).within fuel (level, last, text)

variable {locals source} {fuel level last : Nat} {text : Text}

/-- Groups and the text behind a term are shorter than the text of the level. -/
theorem readLevelWithin_eq (h : text.length < fuel) :
    readLevelWithin locals source fuel level last text =
      .done (readLevel locals source level last text) := by
  refine Procedure.within_eq (fun call => readLevel locals source call.1 call.2.1 call.2.2)
    (fun call => call.2.2.length) ?_ (level, last, text) h h
  rintro ⟨level, last, text⟩ self - hself
  simp only [levelReading]
  rw [readLevel.eq_def]
  by_cases hempty : text.isEmpty = true
  · rw [if_pos hempty, if_pos hempty]
    rfl
  · rw [if_neg hempty, if_neg hempty]
    -- From here on the cases are those of the reader.
    symm
    simp only
    split
    · rename_i inner behind hgroup
      -- Both calls of a group are for shorter texts.
      obtain ⟨hinner, hbehind⟩ := length_lt_of_enclosed? hgroup
      symm
      rw [hgroup]
      simp only
      rw [hself (last + 1, last + 1, Text.trim inner) hinner]
      refine Limited.done_bind_all fun group => ?_
      cases group with
      | none => rfl
      | some group =>
        obtain ⟨terms, last', ending⟩ := group
        cases ending with
        | returned reported => exact Limited.done_bind_all fun _ => rfl
        | complete =>
          simp only
          split
          · exact Limited.done_bind_all fun _ => rfl
          · rw [hself (level, last', Text.trimStart behind) hbehind]
            exact Limited.done_bind_all fun _ => rfl
    · rename_i hgroup
      symm
      rw [hgroup]
      simp only
      split
      · exact Limited.done_bind_all fun _ => rfl
      · split
        · exact Limited.done_bind_all fun _ => rfl
        · rename_i htoken
          split
          · exact Limited.done_bind_all fun _ => rfl
          · have hshorter := Nat.lt_of_lt_of_le (length_splitToken_lt htoken)
              (length_termHead_le text)
            refine Limited.done_bind_all fun atom => ?_
            cases atom with
            | none => rfl
            | some atom =>
              simp only
              rw [hself (level, last, (splitToken 0 (termHead text).rest).2) hshorter]
              exact Limited.done_bind_all fun _ => rfl

end Levels

/-! ### Assignments -/

/-- Reads a chain within some fuel. -/
def Chain.readWithin (fuel : Nat) (locals : List Text) (text : Text) :
    Limited Cause (Option Chain) :=
  if text.count '(' ≠ text.count ')' then do
    Limited.done (note (.unmatchedBrackets text))
    pure none
  else do
    let level ← readLevelWithin locals text fuel 0 0 (Text.trim text)
    pure (level.map Level.terms)

/-- Reads an assignment within some fuel. -/
def Assignment.readWithin (fuel : Nat) (locals : List Text) (line : Nat) (text : Text) :
    Limited Cause (Option Assignment) := do
  match ← Limited.done (sides locals ((plainEquals text).filter fun c => c ≠ ';')) with
  | none => pure none
  | some (target, chainText) =>
    match ← Chain.readWithin fuel locals chainText with
    | none => pure none
    | some [] => do
      Limited.done (note .emptyStatement)
      pure none
    | some chain => pure (some ⟨target, chain, line⟩)

section Assignments

variable {fuel : Nat} {locals : List Text} {text : Text}

/-- Fuel above the length of its text is enough to read a chain. -/
theorem Chain.readWithin_eq (h : text.length < fuel) :
    Chain.readWithin fuel locals text = .done (Chain.read locals text) := by
  rw [Chain.readWithin, Chain.read]
  split
  · exact Limited.done_bind_all fun _ => rfl
  · rw [readLevelWithin_eq (Nat.lt_of_le_of_lt (Text.length_trim_le text) h)]
    exact Limited.done_bind_all fun _ => rfl

theorem length_dropDecoration_le (text : Text) : (dropDecoration text).length ≤ text.length := by
  rw [dropDecoration.eq_def]
  split
  · exact Nat.le_add_right _ 2
  · exact Nat.le_succ _
  · exact Nat.le_succ _
  · exact Nat.le_refl _

theorem length_plainEquals_le (text : Text) : (plainEquals text).length ≤ text.length := by
  rw [plainEquals]
  split
  · exact Nat.le_refl _
  · rename_i before after hcut
    have := Text.cut?_length hcut
    have := length_dropDecoration_le after
    rw [List.length_append, List.length_cons]
    omega

/-- The text of a chain is a part of its statement. -/
theorem length_of_sides {target : Target} {chainText : Text}
    (h : (Assignment.sides locals text).value = some (target, chainText)) :
    chainText.length ≤ text.length := by
  have hpiece (piece : Text) (hmem : piece ∈ (Text.pieces '=' text).map Text.trim) :
      piece.length ≤ text.length := by
    obtain ⟨piece, hpieces, rfl⟩ := List.mem_map.mp hmem
    exact Nat.le_trans (Text.length_trim_le piece) (Text.length_le_of_mem_pieces hpieces)
  unfold Assignment.sides at h
  split at h
  · rename_i chain hpieces
    obtain ⟨-, rfl⟩ := Prod.mk.inj (Option.some.inj h)
    exact hpiece _ (by simp [hpieces])
  · rename_i name chain hpieces
    split at h
    · cases h
    · split at h
      · obtain ⟨-, rfl⟩ := Prod.mk.inj (Option.some.inj h)
        exact hpiece _ (by simp [hpieces])
      · cases h
  · cases h

/-- Fuel above the length of a statement is enough to read it. -/
theorem Assignment.readWithin_eq {line : Nat} (h : text.length < fuel) :
    Assignment.readWithin fuel locals line text = .done (Assignment.read locals line text) := by
  refine Limited.done_bind ?_
  cases hsides : (Assignment.sides locals ((plainEquals text).filter fun c => c ≠ ';')).value with
  | none => rfl
  | some pair =>
    obtain ⟨target, chainText⟩ := pair
    have hchain := length_of_sides hsides
    have hfilter := List.length_filter_le (fun c => c ≠ ';') (plainEquals text)
    have hplain := length_plainEquals_le text
    simp only
    rw [Chain.readWithin_eq (by omega)]
    refine Limited.done_bind_all fun chain => ?_
    cases chain with
    | none => rfl
    | some chain =>
      cases chain with
      | nil => exact Limited.done_bind_all fun _ => rfl
      | cons term terms => rfl

end Assignments

end SignalScript
