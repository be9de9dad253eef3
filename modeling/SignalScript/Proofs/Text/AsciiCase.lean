import SignalScript.Proofs.Text.Trimming
import SignalScript.Proofs.Text.Decimal
import SignalScript.Text.LetterCase

/-!
# Capitals of ASCII

Putting the letters of ASCII into capitals changes no blank, no digit and no sign. So it may be done
before blanks are trimmed or after, and it does not matter to the readers of numbers.

## Main results

* `Text.apply_toUpper` — what the capitals of ASCII leave alone need only be looked up for ASCII
* `Text.trim_asciiUpper` — trimming and putting into capitals can be done in any order
* `Decimal.readInt32?_asciiUpper` — a number is the same number in capitals
-/

namespace SignalScript

namespace Text

/-- A property that no letter of ASCII changes with its case is one that no character does. -/
theorem apply_toUpper {α : Type} {f : Char → α}
    (h : ∀ n < 0x80, f (Char.ofNat n).toUpper = f (Char.ofNat n)) (c : Char) :
    f c.toUpper = f c := by
  by_cases hascii : c.toNat < 0x80
  · have hupper := h c.toNat hascii
    rwa [Char.ofNat_toNat] at hupper
  · -- Beyond ASCII there are no letters to put into capitals.
    have hsame : c.toUpper = c := by
      refine dif_neg ?_
      rintro ⟨-, hlast⟩
      have hlast : c.toNat ≤ 0x7A := hlast
      omega
    rw [hsame]

theorem isBlank_toUpper (c : Char) : isBlank c.toUpper = isBlank c :=
  apply_toUpper (by decide) c

@[simp] theorem asciiUpper_append (front back : Text) :
    asciiUpper (front ++ back) = asciiUpper front ++ asciiUpper back :=
  List.map_append

theorem trimStart_asciiUpper (text : Text) :
    trimStart (asciiUpper text) = asciiUpper (trimStart text) := by
  have hblank : isBlank ∘ Char.toUpper = isBlank := funext isBlank_toUpper
  rw [trimStart, asciiUpper, List.dropWhile_map, hblank]
  rfl

theorem trimEnd_asciiUpper (text : Text) :
    trimEnd (asciiUpper text) = asciiUpper (trimEnd text) := by
  induction text with
  | nil => rfl
  | cons c rest ih =>
    change trimEnd (c.toUpper :: asciiUpper rest) = asciiUpper (trimEnd (c :: rest))
    rw [trimEnd_cons, trimEnd_cons, ih, isBlank_toUpper]
    have hempty : (asciiUpper (trimEnd rest)).isEmpty = (trimEnd rest).isEmpty := by
      rw [asciiUpper, List.isEmpty_map]
    rw [hempty]
    split <;> rfl

theorem trim_asciiUpper (text : Text) : trim (asciiUpper text) = asciiUpper (trim text) := by
  rw [trim, trimStart_asciiUpper, trimEnd_asciiUpper, trim]

end Text

namespace Decimal

open Text

theorem digit?_toUpper (c : Char) : digit? c.toUpper = digit? c :=
  apply_toUpper (by decide) c

theorem readUp_asciiUpper (highest total : Int) (text : Text) :
    readUp highest total (asciiUpper text) = readUp highest total text := by
  induction text generalizing total with
  | nil => rfl
  | cons c rest ih =>
    change readUp highest total (c.toUpper :: asciiUpper rest) = _
    rw [readUp, readUp, digit?_toUpper]
    simp only [ih]

theorem readDown_asciiUpper (lowest total : Int) (text : Text) :
    readDown lowest total (asciiUpper text) = readDown lowest total text := by
  induction text generalizing total with
  | nil => rfl
  | cons c rest ih =>
    change readDown lowest total (c.toUpper :: asciiUpper rest) = _
    rw [readDown, readDown, digit?_toUpper]
    simp only [ih]

theorem read_asciiUpper (lowest highest : Int) (text : Text) :
    read lowest highest (asciiUpper text) = read lowest highest text := by
  cases text with
  | nil => rfl
  | cons c rest =>
    have hplus : c.toUpper = '+' ↔ c = '+' :=
      iff_of_eq (apply_toUpper (f := (· = '+')) (by decide) c)
    have hminus : c.toUpper = '-' ↔ c = '-' :=
      iff_of_eq (apply_toUpper (f := (· = '-')) (by decide) c)
    -- A sign alone is no number; behind a sign, and without one, there are digits.
    by_cases hp : c = '+'
    · subst hp
      cases rest with
      | nil => rfl
      | cons d digits => exact readUp_asciiUpper highest 0 (d :: digits)
    · by_cases hm : c = '-'
      · subst hm
        cases rest with
        | nil => rfl
        | cons d digits => exact readDown_asciiUpper lowest 0 (d :: digits)
      · have hupper := readUp_asciiUpper highest 0 (c :: rest)
        rw [read_of_no_sign hp hm, ← hupper]
        exact read_of_no_sign (hplus.not.mpr hp) (hminus.not.mpr hm)

theorem readInt32?_asciiUpper (text : Text) : readInt32? (asciiUpper text) = readInt32? text := by
  rw [readInt32?, readInt32, read_asciiUpper]
  rfl

end Decimal

end SignalScript
