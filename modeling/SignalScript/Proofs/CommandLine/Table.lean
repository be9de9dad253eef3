import Mathlib.Algebra.Order.Ring.Nat
import SignalScript.CommandLine.Binding

/-!
# Tables filled in order

Bindings are entered into a table one after another, so an entry is what the last binding for it
says. A place may also be given as a number. Then a write fails if the table has no such place; with
numbers of places it never does, and the table is filled as it is with the places themselves.

## Main definitions

* `lastValue?` — the value that is given last for a key
* `placeNumber` — a place in a table as a number
* `writeAt?`, `writeAll?` — writes at places given as numbers

## Main results

* `Bindings.getElem_fill`, `SortedMap.get?_foldl_insert` — the last value for a place is kept
* `writeAll?_placeNumber` — no write fails at the number of a place
-/

namespace SignalScript

/-! ### The last value -/

section LastValue

variable {κ ι β : Type} [DecidableEq κ] [DecidableEq ι]

/-- The value that is given last for a key. -/
def lastValue? (key : κ) (entries : List (κ × β)) : Option β := entries.reverse.lookup key

/-- An earlier entry counts if no later one has the same key. -/
theorem lastValue?_cons (key other : κ) (value : β) (entries : List (κ × β)) :
    lastValue? key ((other, value) :: entries) =
      (lastValue? key entries).or (if other = key then some value else none) := by
  rw [lastValue?, lastValue?, List.reverse_cons, List.lookup_append, List.lookup_cons,
    List.lookup_nil]
  by_cases h : other = key
  · rw [if_pos h, h, beq_self_eq_true]
  · rw [if_neg h, beq_false_of_ne fun hkey => h hkey.symm]

/-- Under other names for the keys the same value is the last. -/
theorem lastValue?_map {f : κ → ι} (hf : Function.Injective f) (key : κ) (entries : List (κ × β)) :
    lastValue? (f key) (entries.map (Prod.map f id)) = lastValue? key entries := by
  induction entries with
  | nil => rfl
  | cons entry entries ih =>
    obtain ⟨other, value⟩ := entry
    rw [List.map_cons, Prod.map_apply, lastValue?_cons, lastValue?_cons, ih]
    simp only [hf.eq_iff, id]

/-- In a list of keys without values a key is found if it is there. -/
theorem isSome_lastValue?_unit (key : κ) (keys : List κ) :
    (lastValue? key (keys.map (·, ()))).isSome = decide (key ∈ keys) := by
  rw [Bool.eq_iff_iff, lastValue?, List.lookup_isSome_iff]
  simp

/-- A map after insertions in order holds the last value for each key. -/
theorem SortedMap.get?_foldl_insert [LT κ] [DecidableLT κ] [@Trans κ κ κ (· < ·) (· < ·) (· < ·)]
    [@Std.Trichotomous κ (· < ·)] (map : SortedMap κ β) (entries : List (κ × β)) (key : κ) :
    (entries.foldl (fun map (key, value) => map.insert key value) map).get? key =
      (lastValue? key entries).or (map.get? key) := by
  induction entries generalizing map with
  | nil => rfl
  | cons entry entries ih =>
    obtain ⟨other, value⟩ := entry
    rw [List.foldl_cons, ih, SortedMap.get?_insert, lastValue?_cons, Option.or_assoc]
    split <;> rfl

end LastValue

/-! ### Tables -/

section Tables

variable {α β : Type} {n : Nat}

/-- A table after entries are set in order holds the last value for each place. -/
theorem Bindings.getElem_fill (table : Vector α n) (wrap : β → α) (entries : List (Fin n × β))
    {place : Nat} (h : place < n) :
    (fill table wrap entries)[place] =
      ((lastValue? ⟨place, h⟩ entries).map wrap).getD table[place] := by
  induction entries generalizing table with
  | nil => rfl
  | cons entry entries ih =>
    obtain ⟨other, value⟩ := entry
    have hfill : fill table wrap ((other, value) :: entries) =
        fill (table.set other (wrap value) other.isLt) wrap entries := rfl
    simp only [hfill, ih, lastValue?_cons]
    by_cases hplace : other = ⟨place, h⟩
    · subst hplace
      cases lastValue? ⟨place, h⟩ entries <;> simp
    · have hne : (other : Nat) ≠ place := fun heq => hplace (Fin.ext heq)
      cases lastValue? ⟨place, h⟩ entries <;> simp [hplace, Vector.getElem_set_ne, hne]

/-- A place in a table as a number. -/
def placeNumber (place : Fin n) : Int32 := Int32.ofNat place

/-- A table after a write at a place given as a number, if the table has such a place. -/
def writeAt? (table : Vector α n) (place : Int32) (value : α) : Option (Vector α n) :=
  if h : 0 ≤ place ∧ place.toInt.toNat < n then some (table.set place.toInt.toNat value h.2)
  else none

/-- A table after writes in order, if all of them succeed. -/
def writeAll? (table : Vector α n) (wrap : β → α) (entries : List (Int32 × β)) :
    Option (Vector α n) :=
  entries.foldlM (fun table (place, value) => writeAt? table place (wrap value)) table

variable (hn : n < 2 ^ 31)

include hn

/-- The number of a place is the place. -/
theorem toInt_placeNumber (place : Fin n) : (placeNumber place).toInt = place :=
  Int32.toInt_ofNat_of_lt (by omega)

/-- Different places have different numbers. -/
theorem placeNumber_injective : Function.Injective (placeNumber (n := n)) := by
  intro place other h
  have hint := congrArg Int32.toInt h
  rw [toInt_placeNumber hn, toInt_placeNumber hn] at hint
  exact Fin.ext (Int.ofNat.inj hint)

/-- Writing at the number of a place never fails. -/
theorem writeAt?_placeNumber (table : Vector α n) (place : Fin n) (value : α) :
    writeAt? table (placeNumber place) value = some (table.set place value place.isLt) := by
  have hplace : (placeNumber place).toInt.toNat = place := by
    rw [toInt_placeNumber hn, Int.toNat_natCast]
  have hnonneg : 0 ≤ placeNumber place := by
    rw [Int32.le_iff_toInt_le, toInt_placeNumber hn]
    exact Int.natCast_nonneg _
  rw [writeAt?, dif_pos ⟨hnonneg, hplace ▸ place.isLt⟩]
  simp only [hplace]

/-- No write at the number of a place fails. -/
theorem writeAll?_placeNumber (table : Vector α n) (wrap : β → α) (entries : List (Fin n × β)) :
    writeAll? table wrap (entries.map (Prod.map placeNumber id)) =
      some (Bindings.fill table wrap entries) := by
  induction entries generalizing table with
  | nil => rfl
  | cons entry entries ih =>
    obtain ⟨place, value⟩ := entry
    have hwrite := writeAt?_placeNumber hn table place (wrap value)
    rw [writeAll?, List.map_cons, List.foldlM_cons]
    simp only [Prod.map_apply, id, hwrite]
    exact ih _

end Tables

end SignalScript
