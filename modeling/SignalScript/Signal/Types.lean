import SignalScript.SortedMap
import SignalScript.Text.LetterCase

/-!
# Signal types

The types of signal that a route has. A type is known by its name, whose case and surrounding
blanks do not matter; the spelling of the first mention is kept.

## Main definitions

* `typeKey` — what names of one type have in common
* `SignalTypes` — the known types in the order of their keys
* `SignalTypes.insert`, `SignalTypes.resolve?`
-/

namespace SignalScript

/-- The key of a type name: small letters, without blanks around them. -/
def typeKey (name : Text) : Text := Text.lower (Text.trim name)

/-- The known signal types, by key. -/
structure SignalTypes where
  byKey : SortedMap Text Text
  deriving DecidableEq, Repr

namespace SignalTypes

/-- No types. -/
def empty : SignalTypes := ⟨SortedMap.empty⟩

/-- The spelling under which a type is known. -/
def resolve? (types : SignalTypes) (name : Text) : Option Text := types.byKey.get? (typeKey name)

/-- The name is not blank and not known yet. -/
def admits (types : SignalTypes) (name : Text) : Bool :=
  !(Text.trim name).isEmpty && (types.resolve? name).isNone

/-- The types with one more, if its name is admitted. -/
def insert (types : SignalTypes) (name : Text) : SignalTypes :=
  if types.admits name then ⟨types.byKey.insert (typeKey name) (Text.trim name)⟩ else types

/-- The types of a list of names. -/
def ofNames (names : List Text) : SignalTypes := names.foldl insert empty

/-- The number of types. -/
def size (types : SignalTypes) : Nat := types.byKey.size

/-- The spellings of the types in the order of their keys. -/
def names (types : SignalTypes) : List Text := types.byKey.values

end SignalTypes

end SignalScript
