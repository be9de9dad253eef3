import SignalScript.Proofs.Condition.ConditionForm
import SignalScript.Proofs.Expression.AssignmentForm

/-!
# Causes in the text

What the readers of a single text complain about lies in that text: how it is put together, or a
name in it that stands for nothing. No reader complains about the type of its script or the file.

## Main definitions

* `Cause.IsOfText` — the cause lies in the text of a script
* `Noted.IsOfText` — so do all causes noted

## Main results

* `Assignment.isOfText_read`, `Condition.isOfText_read` — statements and conditions
-/

namespace SignalScript

/-- The cause lies in the text of a script: not in its type, and not in its file. -/
def Cause.IsOfText (cause : Cause) : Prop := cause.kind = .structural ∨ cause.kind = .resolution

namespace Noted

/-- All causes noted lie in the text. -/
def IsOfText {α : Type} (checked : Checked α) : Prop := ∀ cause ∈ checked.notes, cause.IsOfText

variable {α β : Type} {checked : Checked α}

theorem isOfText_pure (a : α) : (pure a : Checked α).IsOfText := by
  intro cause hcause
  cases hcause

theorem isOfText_note {cause : Cause} (h : cause.IsOfText) : (note cause).IsOfText := by
  simpa [IsOfText] using h

theorem IsOfText.bind {next : α → Checked β} (h : checked.IsOfText)
    (hnext : ∀ a, (next a).IsOfText) : (checked >>= next).IsOfText := by
  intro cause hcause
  rw [notes_bind] at hcause
  exact (List.mem_append.mp hcause).elim (h cause) (hnext _ cause)

/-- A note in front of a value. -/
theorem isOfText_note_pure {cause : Cause} (h : cause.IsOfText) (a : α) :
    (do note cause; pure a : Checked α).IsOfText :=
  (isOfText_note h).bind fun _ => isOfText_pure a

end Noted

open Noted

section Readers

variable (locals : List Text)

theorem Operand.kind_read (text : Text) :
    ∀ cause ∈ (Operand.read locals text).notes, cause.kind = .resolution := by
  rw [Operand.read]
  split
  · exact List.forall_mem_nil _
  · exact List.forall_mem_singleton.mpr rfl

theorem kind_mapM_read (texts : List Text) :
    ∀ cause ∈ (texts.mapM (Operand.read locals)).notes, cause.kind = .resolution := by
  induction texts with
  | nil => exact List.forall_mem_nil _
  | cons text texts ih =>
    rw [List.mapM_cons]
    simp only [notes_bind, notes_pure, List.append_nil]
    exact List.forall_mem_append.mpr ⟨Operand.kind_read locals text, ih⟩

theorem Call.kind_read (text : Text) :
    ∀ cause ∈ (Call.read locals text).notes, cause.kind = .resolution := by
  rw [Call.read]
  split
  · exact List.forall_mem_nil _
  · split
    · exact List.forall_mem_singleton.mpr rfl
    · split
      · exact List.forall_mem_singleton.mpr rfl
      · refine List.forall_mem_append.mpr ⟨kind_mapM_read locals _, ?_⟩
        dsimp only
        split
        · exact List.forall_mem_singleton.mpr rfl
        · exact List.forall_mem_nil _

/-- What is wrong with an operand or call is a name that stands for nothing, or its arguments. -/
theorem Atom.kind_read (text : Text) :
    ∀ cause ∈ (Atom.read locals text).notes, cause.kind = .resolution := by
  rw [Atom.read]
  split
  · simpa using Call.kind_read locals text
  · simpa using Operand.kind_read locals text

theorem Atom.isOfText_read (text : Text) : (Atom.read locals text).IsOfText :=
  fun cause hcause => .inr (Atom.kind_read locals text cause hcause)

theorem isOfText_endReturned (source rest : Text) (reported : Bool) :
    (endReturned source rest reported).IsOfText := by
  rw [endReturned]
  split
  · exact isOfText_pure _
  · exact isOfText_note_pure (.inl rfl) _

theorem isOfText_readLevel (source : Text) (level last : Nat) (text : Text) :
    (readLevel locals source level last text).IsOfText := by
  rw [readLevel.eq_def]
  split
  · exact isOfText_pure _
  · simp only
    split
    · rename_i inner behind hgroup
      -- All that is noted about a group was noted inside it, behind it or at its end.
      have hshorter := length_lt_of_enclosed? hgroup
      refine (isOfText_readLevel source _ _ _).bind fun group => ?_
      split
      · exact isOfText_pure _
      · split
        · exact (isOfText_endReturned _ _ _).bind fun _ => isOfText_pure _
        · split
          · exact isOfText_note_pure (.inl rfl) _
          · exact (isOfText_readLevel source _ _ _).bind fun _ => isOfText_pure _
    · split
      · exact isOfText_note_pure (.inl rfl) _
      · split
        · exact isOfText_note_pure (.inl rfl) _
        · rename_i htoken
          have hshorter := Nat.lt_of_lt_of_le (length_splitToken_lt htoken)
            (length_termHead_le text)
          split
          · exact (isOfText_endReturned _ _ _).bind fun _ => isOfText_pure _
          · refine (Atom.isOfText_read locals _).bind fun atom => ?_
            split
            · exact isOfText_pure _
            · exact (isOfText_readLevel source _ _ _).bind fun _ => isOfText_pure _
termination_by text.length
decreasing_by
  · exact hshorter.1
  · exact hshorter.2
  · exact hshorter

theorem Chain.isOfText_read (text : Text) : (Chain.read locals text).IsOfText := by
  rw [Chain.read]
  split
  · exact isOfText_note_pure (.inl rfl) _
  · exact (isOfText_readLevel locals _ _ _ _).bind fun _ => isOfText_pure _

theorem isOfText_sides (statement : Text) : (Assignment.sides locals statement).IsOfText := by
  rw [Assignment.sides.eq_def]
  split
  · exact isOfText_pure _
  · split
    · exact isOfText_note_pure (.inl rfl) _
    · split
      · exact isOfText_pure _
      · exact isOfText_note_pure (.inr rfl) _
  · exact isOfText_note_pure (.inl rfl) _

theorem Assignment.isOfText_read (line : Nat) (text : Text) :
    (Assignment.read locals line text).IsOfText := by
  rw [Assignment.read]
  refine (isOfText_sides locals _).bind fun sides => ?_
  split
  · exact isOfText_pure _
  · refine (Chain.isOfText_read locals _).bind fun chain => ?_
    split
    · exact isOfText_pure _
    · exact isOfText_note_pure (.inl rfl) _
    · exact isOfText_pure _

theorem Side.isOfText_read (text : Text) : (Side.read locals text).IsOfText := by
  rw [Side.read]
  simp only
  split
  · exact isOfText_note_pure (.inl rfl) _
  · exact (Atom.isOfText_read locals _).bind fun _ => isOfText_pure _

theorem Test.isOfText_read (text : Text) : (Test.read locals text).IsOfText := by
  rw [Test.read]
  split
  · exact (Side.isOfText_read locals _).bind fun _ => isOfText_pure _
  · refine IsOfText.bind ?_ fun _ => (Side.isOfText_read locals _).bind fun _ =>
      (Side.isOfText_read locals _).bind fun _ => isOfText_pure _
    rw [FoundComparator.read]
    split
    · exact isOfText_pure _
    · exact isOfText_note_pure (.inl rfl) _

namespace Condition

theorem isOfText_readPart {group : Nat → Option (Checked (List ConditionItem))}
    (hgroup : ∀ number compound, group number = some compound → compound.IsOfText)
    (part : Text) : (readPart locals group part).IsOfText := by
  rw [readPart]
  simp only
  split
  · exact isOfText_note_pure (.inl rfl) _
  · split
    · rename_i compound hcompound
      obtain ⟨number, -, hnumber⟩ := Option.bind_eq_some_iff.mp hcompound
      exact (hgroup number compound hnumber).bind fun _ => isOfText_pure _
    · exact (Test.isOfText_read locals _).bind fun _ => isOfText_pure _

theorem isOfText_readLater {read : Text → Checked Condition} (hread : ∀ part, (read part).IsOfText)
    (parts : List (Join × Text)) : (readLater read parts).IsOfText := by
  induction parts with
  | nil => exact isOfText_pure _
  | cons first parts ih => exact (hread _).bind fun _ => ih.bind fun _ => isOfText_pure _

theorem isOfText_readList (text : Text) : (readList locals text).IsOfText := by
  rw [readList]
  have hpart : ∀ part, (readPart locals (fun number =>
      if h : number < (liftCompounds text).compounds.length then
        some (readList locals (liftCompounds text).compounds[number])
      else none) part).IsOfText := by
    apply isOfText_readPart
    intro number compound hcompound
    split at hcompound
    · obtain rfl := Option.some.inj hcompound
      exact isOfText_readList _
    · cases hcompound
  exact (hpart _).bind fun _ => (isOfText_readLater hpart _).bind fun _ => isOfText_pure _
termination_by text.length
decreasing_by exact length_of_mem_liftCompounds (List.getElem_mem _)

theorem isOfText_read (head : Text) : (read locals head).IsOfText := by
  rw [read]
  split
  · split
    · exact isOfText_note_pure (.inl rfl) _
    · exact isOfText_readList locals _
  · exact isOfText_note_pure (.inl rfl) _

end Condition

end Readers

end SignalScript
