import SignalScript.Noted

/-!
# Procedures with fuel

A recursive procedure is given by what one call does when the calls it makes are answered by someone
else. With fuel for `n` calls inside one another the procedure answers them itself, and a call
without fuel has no answer. If a measure of the calls decreases from each call to those it makes,
any fuel above the measure of a call gives the same answer, so the procedure terminates.

## Main definitions

* `Limited` — a computation with notes that may run out of fuel
* `Procedure`, `Procedure.within` — a recursive procedure, and its answers within some fuel

## Main results

* `Procedure.within_eq` — any fuel above the measure of a call is enough
-/

namespace SignalScript

/-- A computation with notes that may run out of fuel. -/
def Limited (ν α : Type) : Type := Option (Noted ν α)

namespace Limited

variable {ν μ α β : Type}

/-- A computation that has come to its end. -/
def done (noted : Noted ν α) : Limited ν α := some noted

/-- There was not fuel enough. -/
def exhausted : Limited ν α := none

/-- A computation is exhausted as soon as one of its parts is. -/
instance : Monad (Limited ν) where
  pure a := done (pure a)
  bind first next := Option.bind first fun noted =>
    Option.map (fun later => ⟨later.value, noted.notes ++ later.notes⟩) (next noted.value)

/-- What the computation came to, if there was fuel enough. -/
def noted? (limited : Limited ν α) : Option (Noted ν α) := limited

/-- The computation with every note rewritten. -/
def mapNotes (f : ν → μ) (limited : Limited ν α) : Limited μ α :=
  Option.map (Noted.mapNotes f) limited

@[simp] theorem pure_eq_done (a : α) : (pure a : Limited ν α) = done (pure a) := rfl

@[simp] theorem noted?_done (noted : Noted ν α) : (done noted).noted? = some noted := rfl

@[simp] theorem mapNotes_done (f : ν → μ) (noted : Noted ν α) :
    (done noted).mapNotes f = done (noted.mapNotes f) := rfl

/-- The computation with notes in front of its own. -/
def after (notes : List ν) (limited : Limited ν α) : Limited ν α :=
  Option.map (fun noted => ⟨noted.value, notes ++ noted.notes⟩) limited

@[simp] theorem after_done (notes : List ν) (noted : Noted ν α) :
    (done noted).after notes = done ⟨noted.value, notes ++ noted.notes⟩ := rfl

@[simp] theorem done_bind_eq (noted : Noted ν α) (next : α → Limited ν β) :
    (done noted >>= next) = (next noted.value).after noted.notes := rfl

/-- If the second step comes to its end, so do both. -/
theorem done_bind {noted : Noted ν α} {next : α → Limited ν β} {f : α → Noted ν β}
    (h : next noted.value = done (f noted.value)) : (done noted >>= next) = done (noted >>= f) := by
  rw [done_bind_eq, h]
  rfl

/-- If the second step always comes to its end, so do both. -/
theorem done_bind_all {noted : Noted ν α} {next : α → Limited ν β} {f : α → Noted ν β}
    (h : ∀ a, next a = done (f a)) : (done noted >>= next) = done (noted >>= f) :=
  done_bind (h noted.value)

/-- A step without notes hands on its value. -/
theorem done_pure_bind (a : α) (next : α → Limited ν β) : (done (pure a) >>= next) = next a := by
  rw [done_bind_eq]
  cases h : next a <;> rfl

end Limited

/-- What a call of a recursive procedure does, given the answers to the calls that it makes. -/
abbrev Procedure (ν α : Type) (β : α → Type) :=
  ((call : α) → Limited ν (β call)) → (call : α) → Limited ν (β call)

namespace Procedure

variable {ν α : Type} {β : α → Type}

/-- The answer to a call with fuel for a number of calls inside one another. -/
def within (procedure : Procedure ν α β) : Nat → (call : α) → Limited ν (β call)
  | 0, _ => .exhausted
  | fuel + 1, call => procedure (procedure.within fuel) call

/-- If calls below a bound make only calls of smaller measure, any fuel above the measure of such a
call is enough to answer it. -/
theorem within_eq {procedure : Procedure ν α β} (answer : (call : α) → Noted ν (β call))
    (measure : α → Nat) {bound fuel : Nat}
    (h : ∀ call self, measure call < bound →
      (∀ inner, measure inner < measure call → self inner = .done (answer inner)) →
      procedure self call = .done (answer call))
    (call : α) (hbound : measure call < bound) (hfuel : measure call < fuel) :
    procedure.within fuel call = .done (answer call) := by
  induction fuel generalizing call with
  | zero => omega
  | succ fuel ih =>
    exact h call _ hbound fun inner hinner => ih inner (by omega) (by omega)

end Procedure

end SignalScript
