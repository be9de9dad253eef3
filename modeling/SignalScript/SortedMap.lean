/-!
# Sorted maps

A map from keys to values as a list of entries in the order of their keys. Putting a value under
a key that is present replaces the value.

## Main definitions

* `SortedMap` — the entries, with the proof that their keys ascend
* `SortedMap.get?`, `SortedMap.insert`, `SortedMap.values`

## Main results

* `SortedMap.ascending_place` — an entry that is put in its place leaves the keys ascending
* `SortedMap.get?_insert` — an insertion changes what is found under its key, and nothing else
* `SortedMap.size_insert` — a value under a new key is one value more
-/

namespace SignalScript

/-- Entries in the order of their keys, one for each key. -/
structure SortedMap (κ α : Type) [LT κ] where
  entries : List (κ × α)
  /-- The keys ascend. -/
  ascending : entries.Pairwise fun first second => first.1 < second.1
  deriving DecidableEq, Repr

namespace SortedMap

variable {κ α : Type} [LT κ]

/-- The map without entries. -/
def empty : SortedMap κ α := ⟨[], .nil⟩

/-- The number of entries. -/
def size (map : SortedMap κ α) : Nat := map.entries.length

/-- The values in the order of their keys. -/
def values (map : SortedMap κ α) : List α := map.entries.map Prod.snd

variable [DecidableEq κ]

/-- The value found under a key in a list of entries. -/
def find? (key : κ) : List (κ × α) → Option α
  | [] => none
  | (k, a) :: rest => if k = key then some a else find? key rest

/-- The value under a key. -/
def get? (map : SortedMap κ α) (key : κ) : Option α := find? key map.entries

variable [DecidableLT κ]

/-- Entries with one more in its place. -/
def place (key : κ) (value : α) : List (κ × α) → List (κ × α)
  | [] => [(key, value)]
  | (k, a) :: rest =>
    if k = key then (key, value) :: rest
    else if key < k then (key, value) :: (k, a) :: rest
    else (k, a) :: place key value rest

section Order

variable {entries : List (κ × α)} {key : κ} {value : α}

theorem mem_place {entry : κ × α} (h : entry ∈ place key value entries) :
    entry = (key, value) ∨ entry ∈ entries := by
  induction entries with
  | nil => exact .inl (List.mem_singleton.mp h)
  | cons first rest ih =>
    obtain ⟨k, a⟩ := first
    rw [place] at h
    split at h
    · exact (List.mem_cons.mp h).imp_right (List.mem_cons_of_mem _)
    · split at h
      · exact List.mem_cons.mp h
      · rcases List.mem_cons.mp h with rfl | h
        · exact .inr List.mem_cons_self
        · exact (ih h).imp_right (List.mem_cons_of_mem _)

variable [@Trans κ κ κ (· < ·) (· < ·) (· < ·)] [@Std.Trichotomous κ (· < ·)]

/-- An entry that is put in its place leaves the keys ascending. -/
theorem ascending_place (h : entries.Pairwise fun first second => first.1 < second.1) :
    (place key value entries).Pairwise fun first second => first.1 < second.1 := by
  induction entries with
  | nil => exact List.pairwise_singleton _ _
  | cons first rest ih =>
    obtain ⟨k, a⟩ := first
    obtain ⟨hfirst, hrest⟩ := List.pairwise_cons.mp h
    rw [place]
    split
    · rename_i heq
      rw [heq] at hfirst
      exact List.pairwise_cons.mpr ⟨hfirst, hrest⟩
    · rename_i hne
      split
      · rename_i hlt
        refine List.pairwise_cons.mpr ⟨fun entry hentry => ?_, h⟩
        rcases List.mem_cons.mp hentry with rfl | hentry
        · exact hlt
        · exact Std.lt_trans hlt (hfirst entry hentry)
      · rename_i hlt
        -- Of two keys that differ, one comes first.
        have hbefore : k < key := by
          refine Decidable.byContradiction fun hnot => hne ?_
          exact Std.Trichotomous.trichotomous _ _ hnot hlt
        refine List.pairwise_cons.mpr ⟨fun entry hentry => ?_, ih hrest⟩
        rcases mem_place hentry with rfl | hentry
        · exact hbefore
        · exact hfirst entry hentry

/-- The map with a value under a key. -/
def insert (map : SortedMap κ α) (key : κ) (value : α) : SortedMap κ α :=
  ⟨place key value map.entries, ascending_place map.ascending⟩

end Order

section Lookup

variable {entries : List (κ × α)} {key : κ}

theorem find?_place (entries : List (κ × α)) (key other : κ) (value : α) :
    find? other (place key value entries) =
      if key = other then some value else find? other entries := by
  induction entries with
  | nil => simp [place, find?]
  | cons entry rest ih =>
    obtain ⟨k, a⟩ := entry
    simp only [place]
    split
    · rename_i hk
      subst hk
      by_cases h : k = other <;> simp [find?, h]
    · split
      · by_cases h : key = other <;> simp [find?, h]
      · rename_i hne _
        by_cases hko : k = other
        · subst hko
          simp [find?, Ne.symm hne]
        · simp only [find?, if_neg hko, ih]

theorem length_place (h : find? key entries = none) (value : α) :
    (place key value entries).length = entries.length + 1 := by
  induction entries with
  | nil => rfl
  | cons entry rest ih =>
    obtain ⟨k, a⟩ := entry
    by_cases hk : k = key
    · simp [find?, hk] at h
    · simp only [find?, if_neg hk] at h
      simp only [place, if_neg hk]
      split
      · rfl
      · simp [ih h]

variable [@Trans κ κ κ (· < ·) (· < ·) (· < ·)] [@Std.Trichotomous κ (· < ·)]

/-- An insertion changes what is found under its key, and nothing else. -/
theorem get?_insert (map : SortedMap κ α) (key other : κ) (value : α) :
    (map.insert key value).get? other = if key = other then some value else map.get? other :=
  find?_place map.entries key other value

/-- A value under a new key is one value more. -/
theorem size_insert {map : SortedMap κ α} (h : map.get? key = none) (value : α) :
    (map.insert key value).size = map.size + 1 :=
  length_place h value

end Lookup

end SortedMap

end SignalScript
