import SignalScript.CommandLine.Binding
import SignalScript.Proofs.Expression.Scope
import SignalScript.Proofs.Text.AsciiCase

/-!
# Values of families on the command line

What a text stands for as a value of a family is the number it spells, or else the place of the
member it names, if there is a member at that place. The case of its letters does not matter, nor
whether a name comes with the stem of the family or without.

## Main definitions

* `Family.bareName` — a name in capitals, without the stem of a family

## Main results

* `Family.toOption_parseValue`, `Family.toOption_namedValue` — what a text stands for
* `Family.exists_place_of_parseValue` — every value that is accepted is the place of a member
* `Family.parseValue_eq_ok_iff` — what is no number stands for the member it names
* `Family.toOption_parseValue_congr` — the case of letters does not matter
* `Family.toOption_parseValue_stem` — the stem in front of a name does not matter
-/

namespace SignalScript.Family

open Text

variable {family : Family} {name text text' : Text} {value : Int32}

/-- A name in capitals, without the stem of the family if it begins with it. -/
def bareName (family : Family) (name : Text) : Text :=
  (dropStem? family.stem.toList (asciiUpper name)).getD (asciiUpper name)

/-- A stem in any case is taken off. -/
theorem bareName_of_begins {rest : Text} (h : asciiUpper name = family.stem.toList ++ rest) :
    family.bareName name = rest := by
  have hdrop : dropStem? family.stem.toList (asciiUpper name) = some rest :=
    List.isPrefixOf?_eq_some_iff_append_eq.mpr h.symm
  rw [bareName, hdrop, Option.getD_some]

/-- A name without the stem stays, in capitals. -/
theorem bareName_of_not_begins (h : ¬ family.stem.toList <+: asciiUpper name) :
    family.bareName name = asciiUpper name := by
  have hdrop : dropStem? family.stem.toList (asciiUpper name) = none := by
    rw [Option.eq_none_iff_forall_ne_some]
    intro rest hrest
    exact h ⟨rest, (dropStem?_eq_some hrest).symm⟩
  rw [bareName, hdrop, Option.getD_none]

/-- A full name is the stem and a bare name. -/
theorem fullName_eq (family : Family) (name : Text) :
    family.fullName name = family.stem.toList ++ family.bareName name := by
  rw [fullName]
  split
  · rename_i hprefix
    obtain ⟨rest, hrest⟩ := List.isPrefixOf_iff_prefix.mp hprefix
    rw [bareName_of_begins hrest.symm, hrest]
  · rename_i hprefix
    rw [bareName_of_not_begins fun h => hprefix (List.isPrefixOf_iff_prefix.mpr h)]

/-- No two families share the beginnings of their names. -/
theorem dropStem?_stem (family other : Family) (member : Text) :
    dropStem? other.stem.toList (family.stem.toList ++ member) =
      if other = family then some member else none := by
  cases family <;> cases other <;> rfl

/-- Behind the stem of a family, the places of its members are found and nothing else. -/
theorem resolve?_stem (family : Family) (member : Text) :
    resolve? (family.stem.toList ++ member) =
      (family.value? member).map fun place => (family, Int32.ofNat place) := by
  have hstep (other : Family) :
      ((dropStem? other.stem.toList (family.stem.toList ++ member)).bind other.value?).map
          (fun place => (other, Int32.ofNat place)) =
        if other = family then
          (family.value? member).map fun place => (family, Int32.ofNat place)
        else none := by
    rw [dropStem?_stem]
    split
    · rename_i heq
      rw [heq]
      rfl
    · rfl
  rw [resolve?, funext hstep]
  generalize (family.value? member).map (fun place => (family, Int32.ofNat place)) = result
  cases family <;> cases result <;> rfl

/-- A value is a number, or the place of a name. -/
theorem toOption_namedValue (family : Family) (name : Text) :
    (family.namedValue name).toOption =
      (Decimal.readInt32? name).or ((family.value? (family.bareName name)).map Int32.ofNat) := by
  rw [namedValue]
  cases Decimal.readInt32? name with
  | some value => rfl
  | none =>
    rw [fullName_eq, resolve?_stem]
    cases family.value? (family.bareName name) with
    | none => rfl
    | some place =>
      simp only [Option.map_some, if_pos]
      rfl

/-- Of what texts stand for, the values that have a member are accepted. -/
theorem toOption_parseValue (family : Family) (text : Text) :
    (family.parseValue text).toOption =
      (family.namedValue (trim text)).toOption.filter fun value =>
        (family.memberName? value).isSome := by
  rw [parseValue]
  cases family.namedValue (trim text) with
  | error error => rfl
  | ok value =>
    change Except.toOption (if (family.memberName? value).isNone then
      .error (BindingError.outOfRange family value) else .ok value) = (some value).filter _
    rw [Option.filter_some]
    cases family.memberName? value <;> rfl

/-- A value that has a member is the place of that member. -/
theorem exists_place_of_memberName? {member : String} (h : family.memberName? value = some member) :
    ∃ place, value = Int32.ofNat place ∧ family.members[place]? = some member := by
  rw [memberName?] at h
  split at h
  · cases h
  · rename_i hnonneg
    rw [Int32.lt_iff_toInt_lt] at hnonneg
    refine ⟨value.toInt.toNat, ?_, h⟩
    calc value = Int32.ofInt value.toInt := (Int32.ofInt_toInt value).symm
      _ = Int32.ofInt value.toInt.toNat := by
        rw [Int.toNat_of_nonneg (by simpa using hnonneg)]
      _ = Int32.ofNat value.toInt.toNat := Int32.ofInt_eq_ofNat

/-- Members are named apart, so a name has the place of the member of that name. -/
theorem value?_eq_some_iff {place : Nat} : family.value? name = some place ↔
    ∃ member, family.members[place]? = some member ∧ member.toList = name := by
  have hall : ∀ place : Fin family.members.length,
      family.value? family.members[place].toList = some place := by
    cases family <;> decide
  constructor
  · intro h
    obtain ⟨hlt, hname, -⟩ := List.findIdx?_eq_some_iff_getElem.mp h
    exact ⟨family.members[place], List.getElem?_eq_getElem hlt, of_decide_eq_true hname⟩
  · rintro ⟨member, hmember, rfl⟩
    obtain ⟨hlt, rfl⟩ := List.getElem?_eq_some_iff.mp hmember
    exact hall ⟨place, hlt⟩

/-- Every value that is accepted is the place of a member. -/
theorem exists_place_of_parseValue (h : family.parseValue text = .ok value) :
    ∃ place < family.members.length, value = Int32.ofNat place := by
  have hsome : (family.parseValue text).toOption = some value := congrArg Except.toOption h
  rw [toOption_parseValue, Option.filter_eq_some_iff] at hsome
  obtain ⟨member, hmember⟩ := Option.isSome_iff_exists.mp hsome.2
  obtain ⟨place, hvalue, hplace⟩ := exists_place_of_memberName? hmember
  exact ⟨place, (List.getElem?_eq_some_iff.mp hplace).1, hvalue⟩

theorem toOption_eq_some_iff {result : Except BindingError Int32} :
    result.toOption = some value ↔ result = .ok value := by
  cases result <;> simp [Except.toOption]

/-- What is no number is accepted if it names a member, for the value that has this member. -/
theorem parseValue_eq_ok_iff (h : Decimal.readInt32? (trim text) = none) :
    family.parseValue text = .ok value ↔
      ∃ member, family.memberName? value = some member ∧
        member.toList = family.bareName (trim text) := by
  rw [← toOption_eq_some_iff, toOption_parseValue, toOption_namedValue, h, Option.none_or,
    Option.filter_eq_some_iff, Option.map_eq_some_iff]
  constructor
  · rintro ⟨⟨place, hvalue, rfl⟩, -⟩
    obtain ⟨member, hmember, hname⟩ := value?_eq_some_iff.mp hvalue
    obtain ⟨hlt, rfl⟩ := List.getElem?_eq_some_iff.mp hmember
    exact ⟨_, memberName?_ofNat hlt, hname⟩
  · rintro ⟨member, hmember, hname⟩
    obtain ⟨place, rfl, hplace⟩ := exists_place_of_memberName? hmember
    exact ⟨⟨place, value?_eq_some_iff.mpr ⟨member, hplace, hname⟩, rfl⟩,
      Option.isSome_iff_exists.mpr ⟨member, hmember⟩⟩

/-! ### Spellings -/

/-- The bare name does not depend on the case of the text. -/
theorem bareName_congr (h : asciiUpper text = asciiUpper text') :
    family.bareName text = family.bareName text' := by
  rw [bareName, bareName, h]

theorem asciiUpper_trim_congr (h : asciiUpper text = asciiUpper text') :
    asciiUpper (trim text) = asciiUpper (trim text') := by
  rw [← trim_asciiUpper, h, trim_asciiUpper]

/-- Whether a text is a number does not depend on its case. -/
theorem readInt32?_congr (h : asciiUpper text = asciiUpper text') :
    Decimal.readInt32? text = Decimal.readInt32? text' := by
  rw [← Decimal.readInt32?_asciiUpper, h, Decimal.readInt32?_asciiUpper]

/-- Texts that differ in the case of their letters stand for the same value. -/
theorem toOption_parseValue_congr (h : asciiUpper text = asciiUpper text') :
    (family.parseValue text).toOption = (family.parseValue text').toOption := by
  have htrim := asciiUpper_trim_congr h
  rw [toOption_parseValue, toOption_parseValue, toOption_namedValue, toOption_namedValue,
    readInt32?_congr htrim, bareName_congr htrim]

theorem asciiUpper_stem (family : Family) :
    asciiUpper family.stem.toList = family.stem.toList := by
  cases family <;> rfl

/-- A stem is no number, whatever stands behind it. -/
theorem readInt32?_stem (family : Family) (name : Text) :
    Decimal.readInt32? (family.stem.toList ++ name) = none := by
  cases family <;> exact Decimal.readInt32?_eq_none rfl (by decide) (by decide)

theorem trim_stem (family : Family) (h : trim name = name) :
    trim (family.stem.toList ++ name) = family.stem.toList ++ name := by
  have hstem : IsTight family.stem.toList := by cases family <;> decide
  by_cases hname : name = []
  · rw [hname, List.append_nil, hstem.trim_eq]
  · have htight : IsTight name := ⟨hname, h⟩
    simpa using (hstem.append htight []).trim_eq

/-- A stem that is put in front is taken off again. -/
theorem bareName_stem (family : Family) (name : Text) :
    family.bareName (family.stem.toList ++ name) = asciiUpper name :=
  bareName_of_begins (by rw [asciiUpper_append, asciiUpper_stem])

/-- A name that does not begin with the stem stands for the same value with the stem in front. -/
theorem toOption_parseValue_stem (htrim : trim name = name)
    (hnumber : Decimal.readInt32? name = none)
    (hstem : ¬ family.stem.toList <+: asciiUpper name) :
    (family.parseValue (family.stem.toList ++ name)).toOption =
      (family.parseValue name).toOption := by
  rw [toOption_parseValue, toOption_parseValue, trim_stem family htrim, htrim,
    toOption_namedValue, toOption_namedValue, readInt32?_stem, hnumber, bareName_stem,
    bareName_of_not_begins hstem]

/-- No member of a family begins with the stem of the family. -/
theorem value?_stem (family : Family) (rest : Text) :
    family.value? (family.stem.toList ++ rest) = none := by
  have hmembers : ∀ member ∈ family.members, ¬ family.stem.toList <+: member.toList := by
    cases family <;> decide
  refine List.findIdx?_eq_none_iff.mpr fun member hmember => ?_
  rw [decide_eq_false_iff_not]
  intro hname
  exact hmembers member hmember ⟨rest, hname.symm⟩

/-- A name with two stems is rejected. -/
theorem toOption_parseValue_two_stems (htrim : trim name = name)
    (hstem : family.stem.toList <+: asciiUpper name) :
    (family.parseValue (family.stem.toList ++ name)).toOption = none := by
  obtain ⟨rest, hrest⟩ := hstem
  rw [toOption_parseValue, trim_stem family htrim, toOption_namedValue, readInt32?_stem,
    bareName_stem, ← hrest, value?_stem]
  rfl

end SignalScript.Family
