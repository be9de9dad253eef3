import Mathlib.Tactic.IntervalCases
import SignalScript.Proofs.CommandLine.NamedValue
import SignalScript.Proofs.CommandLine.Table

/-!
# The signal given on the command line

The options that may be given several times take texts, and a text that is accepted stands for a
place in a table, or for an aspect, with a value. Here the texts are read a second time, with
numbers of 32 bits for places and with no look at the size of a table; only the unknown signal
function is refused. Both ways to read accept the same texts, and the signal is the same: every number that is
read is the number of a place, so that no write goes outside its table.

## Main definitions

* `parseFunctionNumber`, `parseFunctionAspectNumber` — bindings read as numbers
* `GivenTexts` — the texts of all options that may be given several times
* `GivenNumbers`, `GivenNumbers.signal?` — the bindings in numbers, and the signal written with them
* `GivenNumbers.Describes` — a signal with the last value at each place, and blank elsewhere

## Main results

* `parseFunctionNumber_eq`, `parseValue_feature_eq` — what is read as a number is a place
* `Bindings.signal?_numbers`, `Bindings.describes_signal` — the signal written with numbers
* `exists_signal_of_accepted` — accepted texts give a signal with the last value at each place, and
  neither the case of letters nor the stem of a name matters
-/

namespace SignalScript

open Text

/-! ### Places read as numbers -/

section Numbers

/-- The number of the signal function that a text stands for. -/
def parseFunctionNumber (text : Text) : Except BindingError Int32 := do
  let value ← Family.signalFunction.parseValue text
  if 4 < value then throw .unboundFunction
  pure value

/-- The number of a signal function and an aspect, with an equals sign between them. -/
def parseFunctionAspectNumber (text : Text) : Except BindingError (Int32 × Int32) :=
  match Text.cut? '=' text with
  | none => .error (.notAPair .functionAspect text)
  | some (functionText, aspectText) => do
    let function ← parseFunctionNumber functionText
    let aspect ← Family.aspect.parseValue aspectText
    pure (function, aspect)

/-- All signal functions but the unknown one have a place, and no other number is accepted. -/
theorem parseFunctionNumber_eq (text : Text) :
    parseFunctionNumber text = (parseFunction text).map placeNumber := by
  rw [parseFunctionNumber, parseFunction]
  cases hvalue : Family.signalFunction.parseValue text with
  | error error => rfl
  | ok value =>
    obtain ⟨place, hplace, rfl⟩ := Family.exists_place_of_parseValue hvalue
    have hplace : place < 6 := hplace
    interval_cases place <;> rfl

/-- Every number of a feature that is accepted has a place. -/
theorem parseValue_feature_eq (text : Text) :
    Family.feature.parseValue text = (parseFeature text).map placeNumber := by
  rw [parseFeature]
  cases hvalue : Family.feature.parseValue text with
  | error error => rfl
  | ok value =>
    obtain ⟨place, hplace, rfl⟩ := Family.exists_place_of_parseValue hvalue
    have hplace : place < 10 := hplace
    interval_cases place <;> rfl

/-- The reader of a place and an aspect is the checked one, but that the place is a number. -/
theorem parseFunctionAspectNumber_eq (text : Text) :
    parseFunctionAspectNumber text =
      (parseFunctionAspect text).map (Prod.map placeNumber id) := by
  rw [parseFunctionAspectNumber, parseFunctionAspect]
  cases Text.cut? '=' text with
  | none => rfl
  | some sides =>
    obtain ⟨functionText, aspectText⟩ := sides
    simp only [parseFunctionNumber_eq]
    cases parseFunction functionText with
    | error error => rfl
    | ok place => cases Family.aspect.parseValue aspectText <;> rfl

end Numbers

/-! ### Texts and numbers -/

section Given

/-- The texts given for the options that may be given several times, each list in the order
given. -/
structure GivenTexts where
  next : List Text
  own : List Text
  opposite : List Text
  features : List Text
  drawStates : List Text

/-- What these options bind, with numbers for places. -/
structure GivenNumbers where
  next : List (Int32 × Int32)
  own : List (Int32 × Int32)
  opposite : List (Int32 × Int32)
  features : List Int32
  drawStates : List (Int32 × Int32)
  deriving DecidableEq

/-- The texts read as numbers. -/
def GivenTexts.numbers (texts : GivenTexts) : Except BindingError GivenNumbers := do
  let next ← texts.next.mapM parseFunctionAspectNumber
  let own ← texts.own.mapM parseFunctionAspectNumber
  let opposite ← texts.opposite.mapM parseFunctionAspectNumber
  let features ← texts.features.mapM Family.feature.parseValue
  let drawStates ← texts.drawStates.mapM parseAspectDrawState
  pure ⟨next, own, opposite, features, drawStates⟩

/-- The bindings that the texts stand for, with those of other options. -/
def GivenTexts.bindings (texts : GivenTexts) (others : Bindings) :
    Except BindingError Bindings := do
  let next ← texts.next.mapM parseFunctionAspect
  let own ← texts.own.mapM parseFunctionAspect
  let opposite ← texts.opposite.mapM parseFunctionAspect
  let features ← texts.features.mapM parseFeature
  let drawStates ← texts.drawStates.mapM parseAspectDrawState
  pure { others with next, own, opposite, features, drawStates }

/-- The bindings with the numbers of their places. -/
def Bindings.numbers (bindings : Bindings) : GivenNumbers where
  next := bindings.next.map (Prod.map placeNumber id)
  own := bindings.own.map (Prod.map placeNumber id)
  opposite := bindings.opposite.map (Prod.map placeNumber id)
  features := bindings.features.map placeNumber
  drawStates := bindings.drawStates

/-- The signal with its tables written place by place, if no write goes outside its table. The
values that are no tables are those of other options. -/
def GivenNumbers.signal? (numbers : GivenNumbers) (others : Bindings) : Option FixedSignal := do
  let nextSignals ← writeAll? (Vector.replicate 5 0) id numbers.next
  let thisSignals ← writeAll? (Vector.replicate 5 none) some numbers.own
  let oppositeSignals ← writeAll? (Vector.replicate 5 0) id numbers.opposite
  let features ←
    writeAll? (Vector.replicate 10 false) (fun _ => true) (numbers.features.map (·, ()))
  let drawStates :=
    numbers.drawStates.foldl (fun map (aspect, drawState) => map.insert aspect drawState)
      SortedMap.empty
  pure { others.signal with nextSignals, thisSignals, oppositeSignals, features, drawStates }

/-- The signal has, at every place and for every aspect, the last value given for it, and is blank
where none is given. -/
structure GivenNumbers.Describes (numbers : GivenNumbers) (signal : FixedSignal) : Prop where
  next : ∀ place : Fin 5,
    signal.nextSignals[place] = (lastValue? (placeNumber place) numbers.next).getD 0
  own : ∀ place : Fin 5, signal.thisSignals[place] = lastValue? (placeNumber place) numbers.own
  opposite : ∀ place : Fin 5,
    signal.oppositeSignals[place] = (lastValue? (placeNumber place) numbers.opposite).getD 0
  features : ∀ place : Fin 10,
    signal.features[place] = decide (placeNumber place ∈ numbers.features)
  drawStates : ∀ aspect, signal.drawStates.get? aspect = lastValue? aspect numbers.drawStates

theorem mapM_map {α β γ ε : Type} (f : α → Except ε β) (g : β → γ) (list : List α) :
    (list.mapM fun a => (f a).map g) = (list.mapM f).map (List.map g) := by
  induction list with
  | nil => rfl
  | cons a list ih =>
    rw [List.mapM_cons, List.mapM_cons, ih]
    cases f a with
    | error error => rfl
    | ok b => cases list.mapM f <;> rfl

/-- The same texts are accepted with numbers and without, and stand for the same. -/
theorem GivenTexts.numbers_eq (texts : GivenTexts) (others : Bindings) :
    texts.numbers = (texts.bindings others).map Bindings.numbers := by
  have hpairs (list : List Text) : list.mapM parseFunctionAspectNumber =
      (list.mapM parseFunctionAspect).map (List.map (Prod.map placeNumber id)) := by
    rw [← mapM_map, funext parseFunctionAspectNumber_eq]
  have hfeatures (list : List Text) : list.mapM Family.feature.parseValue =
      (list.mapM parseFeature).map (List.map placeNumber) := by
    rw [← mapM_map, funext parseValue_feature_eq]
  rw [numbers, bindings, hpairs, hpairs, hpairs, hfeatures]
  -- From here on both sides stop at the first text that is refused.
  cases texts.next.mapM parseFunctionAspect with
  | error error => rfl
  | ok next =>
  cases texts.own.mapM parseFunctionAspect with
  | error error => rfl
  | ok own =>
  cases texts.opposite.mapM parseFunctionAspect with
  | error error => rfl
  | ok opposite =>
  cases texts.features.mapM parseFeature with
  | error error => rfl
  | ok features => cases texts.drawStates.mapM parseAspectDrawState <;> rfl

end Given

/-! ### The signal -/

section Signal

/-- If two steps succeed, so does the first, and the second succeeds on its outcome. -/
theorem exists_of_bind_eq_ok {α β ε : Type} {value : Except ε α} {next : α → Except ε β} {b : β}
    (h : (value >>= next) = .ok b) : ∃ a, value = .ok a ∧ next a = .ok b := by
  cases value with
  | error error => cases h
  | ok a => exact ⟨a, rfl, h⟩

variable {texts : GivenTexts} {others bindings : Bindings}

/-- Texts for tables leave alone what is no table. -/
theorem GivenTexts.signal?_eq_of_bindings (h : texts.bindings others = .ok bindings)
    (numbers : GivenNumbers) : numbers.signal? others = numbers.signal? bindings := by
  obtain ⟨next, -, h⟩ := exists_of_bind_eq_ok h
  obtain ⟨own, -, h⟩ := exists_of_bind_eq_ok h
  obtain ⟨opposite, -, h⟩ := exists_of_bind_eq_ok h
  obtain ⟨features, -, h⟩ := exists_of_bind_eq_ok h
  obtain ⟨drawStates, -, h⟩ := exists_of_bind_eq_ok h
  obtain rfl := Except.ok.inj h
  rfl

/-- Written with the numbers of places, the signal is the one that the bindings describe. -/
theorem Bindings.signal?_numbers (bindings : Bindings) :
    bindings.numbers.signal? bindings = some bindings.signal := by
  have hfeatures : bindings.numbers.features.map (·, ()) =
      (bindings.features.map (·, ())).map (Prod.map placeNumber id) := by
    rw [numbers, List.map_map, List.map_map]
    rfl
  rw [GivenNumbers.signal?, hfeatures]
  -- The tables are far smaller than the numbers reach, so no write fails.
  simp only [numbers, writeAll?_placeNumber (by omega : 5 < 2 ^ 31),
    writeAll?_placeNumber (by omega : 10 < 2 ^ 31)]
  rfl

/-- The signal has the last value at each place. -/
theorem Bindings.describes_signal (bindings : Bindings) :
    bindings.numbers.Describes bindings.signal where
  next place := by
    rw [signal, Fin.getElem_fin, getElem_fill, numbers,
      lastValue?_map (placeNumber_injective (by omega))]
    simp
  own place := by
    rw [signal, Fin.getElem_fin, getElem_fill, numbers,
      lastValue?_map (placeNumber_injective (by omega))]
    cases lastValue? place bindings.own <;> simp
  opposite place := by
    rw [signal, Fin.getElem_fin, getElem_fill, numbers,
      lastValue?_map (placeNumber_injective (by omega))]
    simp
  features place := by
    have hmem : placeNumber place ∈ bindings.numbers.features ↔ place ∈ bindings.features :=
      List.mem_map_of_injective (placeNumber_injective (by omega))
    rw [signal, Fin.getElem_fin, getElem_fill, decide_eq_decide.mpr hmem, ← isSome_lastValue?_unit]
    cases lastValue? place (bindings.features.map (·, ())) <;> simp
  drawStates aspect := by
    rw [signal, SortedMap.get?_foldl_insert]
    exact Option.or_none

/-- Texts that are accepted, read as numbers, give a signal, since no write goes outside its table;
at each place it has the last value given, and it is blank elsewhere. And what is no number, in any
case of its letters, stands for the value of a family that has the member of that name, with the
stem of the family in front and without; only in front of a stem a second one is too much. -/
theorem exists_signal_of_accepted :
    (∀ (texts : GivenTexts) (others : Bindings) (numbers : GivenNumbers),
      texts.numbers = .ok numbers →
        ∃ bindings, texts.bindings others = .ok bindings ∧
          numbers.signal? others = some bindings.signal ∧
          numbers.Describes bindings.signal) ∧
    ∀ (family : Family) (name bare full : Text),
      trim name = name → Decimal.readInt32? name = none →
      asciiUpper bare = asciiUpper name →
      asciiUpper full = asciiUpper (family.stem.toList ++ name) →
        (∀ value, family.parseValue bare = .ok value ↔
          ∃ member, family.memberName? value = some member ∧
            member.toList = family.bareName name) ∧
        (family.parseValue full).toOption =
          if family.stem.toList <+: asciiUpper name then none
          else (family.parseValue bare).toOption := by
  constructor
  · intro texts others numbers hnumbers
    rw [texts.numbers_eq others] at hnumbers
    cases hbindings : texts.bindings others with
    | error error =>
      rw [hbindings] at hnumbers
      cases hnumbers
    | ok bindings =>
      rw [hbindings] at hnumbers
      obtain rfl := Except.ok.inj hnumbers
      refine ⟨bindings, rfl, ?_, bindings.describes_signal⟩
      rw [GivenTexts.signal?_eq_of_bindings hbindings, bindings.signal?_numbers]
  · intro family name bare full htrim hnumber hbare hfull
    constructor
    · intro value
      -- Only the case of the name differs, and no look-up regards it.
      have hname : asciiUpper (trim bare) = asciiUpper name := by
        rw [Family.asciiUpper_trim_congr hbare, htrim]
      rw [← Family.bareName_congr hname]
      apply Family.parseValue_eq_ok_iff
      rw [Family.readInt32?_congr hname, hnumber]
    · rw [Family.toOption_parseValue_congr hfull, Family.toOption_parseValue_congr hbare]
      split
      · rename_i hstem
        exact Family.toOption_parseValue_two_stems htrim hstem
      · rename_i hstem
        exact Family.toOption_parseValue_stem htrim hnumber hstem

/-- Texts in many spellings, several of them for one place. -/
def spelledTexts : GivenTexts where
  next := ["normal=SIGASP_CLEAR_2".toList, "+01=3".toList, " Sigfn_Normal =stop_and_proceed".toList]
  own := ["sigfn_info= 0008".toList]
  opposite := []
  features := ["user1".toList, "\tsigFEAT_decor ".toList, "+9".toList]
  drawStates := ["stop=-4".toList, "Clear_1=5".toList, "-0= +7 ".toList]

theorem exists_signal_of_spelledTexts :
    spelledTexts.numbers =
      .ok ⟨[(0, 7), (1, 3), (0, 1)], [(4, 8)], [], [6, 0, 9], [(0, -4), (6, 5), (0, 7)]⟩ ∧
    (∃ bindings, spelledTexts.bindings .empty = .ok bindings ∧
      bindings.signal.nextSignals[0] = 1 ∧ bindings.signal.drawStates.get? 0 = some 7) ∧
    Family.aspect.parseValue "sigasp_CLEAR_2".toList = .ok 7 := by
  have hnumbers : spelledTexts.numbers =
      .ok ⟨[(0, 7), (1, 3), (0, 1)], [(4, 8)], [], [6, 0, 9], [(0, -4), (6, 5), (0, 7)]⟩ := by
    rfl
  obtain ⟨bindings, hbindings, -, hdescribes⟩ := exists_signal_of_accepted.1 _ .empty _ hnumbers
  obtain ⟨hbare, hfull⟩ := exists_signal_of_accepted.2 .aspect "clear_2".toList "Clear_2".toList
    "sigasp_CLEAR_2".toList (by decide) (by decide) (by decide) (by decide)
  refine ⟨hnumbers, ⟨bindings, hbindings, hdescribes.next 0, hdescribes.drawStates 0⟩, ?_⟩
  have hvalue : Family.aspect.parseValue "Clear_2".toList = .ok 7 := by
    apply (hbare 7).mpr
    exact ⟨"CLEAR_2", by decide, by decide⟩
  rw [hvalue, if_neg (by decide)] at hfull
  exact Family.toOption_eq_some_iff.mp hfull

end Signal

end SignalScript
