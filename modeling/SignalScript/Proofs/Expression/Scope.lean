import SignalScript.Expression.Assignment

/-!
# Scope of operands

Whatever a text spells, an operand that is read from it refers to a declared local variable, or to
a member of the family that it names. An unknown name becomes a number and refers to nothing.

## Main definitions

* `Operand.InScope`, `Atom.InScope`, `Target.InScope` — all slots are taken, all constants known

## Main results

* `Operand.inScope_read`, `Atom.inScope_read` — what is read is in scope
-/

namespace SignalScript

/-- The operand refers to a declared local variable, or to a member of its family. -/
def Operand.InScope (locals : List Text) : Operand → Prop
  | .slot index => index < locals.length
  | .named family value => (family.memberName? value).isSome = true
  | .constant _ | .external _ => True

/-- All arguments of the call are in scope. -/
def Call.InScope (locals : List Text) (call : Call) : Prop :=
  ∀ argument ∈ call.arguments, argument.InScope locals

/-- The operand, or every argument of the call, is in scope. -/
def Atom.InScope (locals : List Text) : Atom → Prop
  | .operand o => o.InScope locals
  | .call c => c.InScope locals

/-- The target is no undeclared local variable. -/
def Target.InScope (locals : List Text) : Target → Prop
  | .slot index => index < locals.length
  | .external _ | .discard => True

theorem Noted.value_mapM {ν α β : Type} (f : α → Noted ν β) (list : List α) :
    (list.mapM f).value = list.map fun a => (f a).value := by
  induction list with
  | nil => rfl
  | cons a list ih => rw [List.mapM_cons, Noted.value_bind, Noted.value_bind, ih]; rfl

theorem Noted.notes_mapM {ν α β : Type} (f : α → Noted ν β) (list : List α) :
    (list.mapM f).notes = list.flatMap fun a => (f a).notes := by
  induction list with
  | nil => rfl
  | cons a list ih =>
    rw [List.mapM_cons, Noted.notes_bind, Noted.notes_bind, ih, List.flatMap_cons]
    exact congrArg _ (List.append_nil _)

section Reading

variable {locals : List Text} {name text : Text}

/-- A name that has a slot is declared. -/
theorem slot?_lt {index : Nat} (h : slot? locals name = some index) : index < locals.length := by
  obtain ⟨hlt, -⟩ := List.findIdx?_eq_some_iff_getElem.mp h
  exact hlt

/-- The values of a family are the places of its members. -/
theorem Family.memberName?_ofNat {family : Family} {place : Nat}
    (h : place < family.members.length) :
    family.memberName? (Int32.ofNat place) = some family.members[place] := by
  revert place
  cases family <;> decide

/-- A constant that was found is a member of its family. -/
theorem Family.isSome_memberName?_of_resolve? {family : Family} {value : Int32}
    (h : resolve? name = some (family, value)) : (family.memberName? value).isSome = true := by
  obtain ⟨found, -, hfound⟩ := List.exists_of_findSome?_eq_some h
  obtain ⟨place, hplace, heq⟩ := Option.map_eq_some_iff.mp hfound
  obtain ⟨rfl, rfl⟩ := Prod.mk.inj heq
  obtain ⟨member, -, hmember⟩ := Option.bind_eq_some_iff.mp hplace
  obtain ⟨hlt, -⟩ := List.findIdx?_eq_some_iff_getElem.mp hmember
  rw [memberName?_ofNat hlt, Option.isSome_some]

theorem Operand.inScope_known? {operand : Operand} (h : known? locals name = some operand) :
    operand.InScope locals := by
  unfold known? at h
  split at h
  · obtain rfl := Option.some.inj h
    trivial
  · split at h
    · obtain rfl := Option.some.inj h
      trivial
    · split at h
      · rename_i hslot
        obtain rfl := Option.some.inj h
        exact slot?_lt hslot
      · obtain ⟨⟨family, value⟩, hresolve, rfl⟩ := Option.map_eq_some_iff.mp h
        exact Family.isSome_memberName?_of_resolve? hresolve

/-- Every operand that was read is in scope; zero stands for an unknown name. -/
theorem Operand.inScope_read (locals : List Text) (text : Text) :
    (Operand.read locals text).value.InScope locals := by
  rw [Operand.read]
  split
  · rename_i hknown
    exact inScope_known? hknown
  · trivial

/-- The arguments of a call are read one by one. -/
theorem Call.exists_arguments_eq {call : Call} (h : (Call.read locals text).value = some call) :
    ∃ texts : List Text,
      call.arguments = texts.map fun text => (Operand.read locals text).value := by
  unfold Call.read at h
  split at h
  · cases h
  · split at h
    · cases h
    · split at h
      · cases h
      · rename_i rest _ _ _ function _
        -- The note about the number of arguments leaves the call as it is.
        have hcall : some ⟨function, ((argumentTexts rest).mapM (Operand.read locals)).value⟩ =
            some call := by
          simp only [Noted.value_bind] at h
          split at h <;> exact h
        obtain rfl := Option.some.inj hcall
        exact ⟨argumentTexts rest, Noted.value_mapM _ _⟩

/-- Every call that was read is in scope. -/
theorem Call.inScope_read {call : Call} (h : (Call.read locals text).value = some call) :
    call.InScope locals := by
  obtain ⟨texts, harguments⟩ := Call.exists_arguments_eq h
  intro argument hargument
  rw [harguments] at hargument
  obtain ⟨argumentText, -, rfl⟩ := List.mem_map.mp hargument
  exact Operand.inScope_read locals argumentText

/-- Every atom that was read is in scope. -/
theorem Atom.inScope_read {atom : Atom} (h : (Atom.read locals text).value = some atom) :
    atom.InScope locals := by
  unfold Atom.read at h
  split at h
  · obtain ⟨call, hcall, rfl⟩ := Option.map_eq_some_iff.mp h
    exact Call.inScope_read hcall
  · obtain rfl := Option.some.inj h
    exact Operand.inScope_read locals text

theorem Target.inScope_named? {target : Target} (h : named? locals name = some target) :
    target.InScope locals := by
  unfold named? at h
  split at h
  · obtain rfl := Option.some.inj h
    trivial
  · obtain ⟨index, hslot, rfl⟩ := Option.map_eq_some_iff.mp h
    exact slot?_lt hslot

end Reading

end SignalScript
