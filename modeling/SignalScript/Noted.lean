/-!
# Values with notes

A computation that leaves notes behind: the problems that a reader met, or the questions that a
script asked. Notes are kept oldest first, and nothing takes a note back.

## Main definitions

* `Noted` — a value with the notes made on the way to it
* `note` — leaves one note

## Main results

* `Noted.value_bind`, `Noted.notes_bind` — a second step sees the value of the first and adds
  its notes behind
-/

namespace SignalScript

/-- A value with the notes made on the way to it, oldest first. -/
structure Noted (ν α : Type) where
  value : α
  notes : List ν
  deriving DecidableEq, Repr

namespace Noted

variable {ν μ α β : Type}

/-- The notes of the first part stand in front of those of the second. -/
instance : Monad (Noted ν) where
  pure a := ⟨a, []⟩
  bind first next := ⟨(next first.value).value, first.notes ++ (next first.value).notes⟩

@[simp] theorem value_pure (a : α) : (pure a : Noted ν α).value = a := rfl

@[simp] theorem notes_pure (a : α) : (pure a : Noted ν α).notes = [] := rfl

@[simp] theorem value_bind (first : Noted ν α) (next : α → Noted ν β) :
    (first >>= next).value = (next first.value).value := rfl

@[simp] theorem notes_bind (first : Noted ν α) (next : α → Noted ν β) :
    (first >>= next).notes = first.notes ++ (next first.value).notes := rfl

/-- Notes are put together as lists are, so it does not matter in which order parts are joined. -/
instance : LawfulMonad (Noted ν) :=
  LawfulMonad.mk' (Noted ν) (fun x => by simp [Functor.map]) (fun _ _ => by simp [bind, pure])
    (fun _ _ _ => by simp [bind, List.append_assoc])

/-- The same value with every note rewritten. -/
def mapNotes (f : ν → μ) (noted : Noted ν α) : Noted μ α := ⟨noted.value, noted.notes.map f⟩

@[simp] theorem value_map (f : α → β) (noted : Noted ν α) :
    (f <$> noted).value = f noted.value := rfl

@[simp] theorem notes_map (f : α → β) (noted : Noted ν α) : (f <$> noted).notes = noted.notes := by
  simp [← bind_pure_comp]

@[simp] theorem value_mapNotes (f : ν → μ) (noted : Noted ν α) :
    (noted.mapNotes f).value = noted.value := rfl

@[simp] theorem notes_mapNotes (f : ν → μ) (noted : Noted ν α) :
    (noted.mapNotes f).notes = noted.notes.map f := rfl

end Noted

/-- Leaves one note. -/
def note {ν : Type} (n : ν) : Noted ν Unit := ⟨(), [n]⟩

@[simp] theorem value_note {ν : Type} (n : ν) : (note n).value = () := rfl

@[simp] theorem notes_note {ν : Type} (n : ν) : (note n).notes = [n] := rfl

end SignalScript
