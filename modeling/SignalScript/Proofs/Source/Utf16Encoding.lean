import Mathlib.Tactic.SplitIfs
import SignalScript.Text.Utf16

/-!
# Texts stored in UTF-16

The bytes of a text in UTF-16, in either order, are decoded to the text. A character outside the
first plane takes a pair of surrogates, and no other character has a unit that is one, so units are
never paired that were not written as a pair.

## Main definitions

* `Utf16.charUnits`, `Utf16.encode` — the units of a character and the bytes of a text

## Main results

* `Utf16.decodeLossy_charUnits_append` — the units of a character are decoded to it
* `Utf16.decodeLossy_units_encode` — what was encoded is decoded, with a stray byte behind it
-/

namespace SignalScript.Utf16

/-- The units of a character: its code point, or a pair of surrogates. -/
def charUnits (c : Char) : List Nat :=
  if c.toNat < 0x10000 then [c.toNat]
  else [0xD800 + (c.toNat - 0x10000) / 0x400, 0xDC00 + (c.toNat - 0x10000) % 0x400]

/-- The bytes of a unit. -/
def ByteOrder.bytes (order : ByteOrder) (unit : Nat) : List UInt8 :=
  match order with
  | .littleEndian => [UInt8.ofNat (unit % 256), UInt8.ofNat (unit / 256)]
  | .bigEndian => [UInt8.ofNat (unit / 256), UInt8.ofNat (unit % 256)]

/-- The bytes of a text in UTF-16. -/
def encode (order : ByteOrder) (text : Text) : List UInt8 :=
  (text.flatMap charUnits).flatMap order.bytes

variable {order : ByteOrder}

/-! ### Bytes and units -/

theorem lt_of_mem_charUnits {c : Char} {unit : Nat} (h : unit ∈ charUnits c) : unit < 0x10000 := by
  have hvalid : c.toNat < 0xD800 ∨ 0xDFFF < c.toNat ∧ c.toNat < 0x110000 := c.valid
  rw [charUnits] at h
  split_ifs at h with hsingle
  · rw [List.mem_singleton.mp h]
    exact hsingle
  · simp only [List.mem_cons, List.not_mem_nil, or_false] at h
    omega

/-- The bytes of a unit are read as the unit. -/
theorem units_bytes_append {unit : Nat} (h : unit < 0x10000) (rest : List UInt8) :
    units order (order.bytes unit ++ rest) = unit :: units order rest := by
  have hlow : (UInt8.ofNat (unit % 256)).toNat = unit % 256 := by
    rw [UInt8.toNat_ofNat']
    omega
  have hhigh : (UInt8.ofNat (unit / 256)).toNat = unit / 256 := by
    rw [UInt8.toNat_ofNat']
    omega
  have hunit : unit / 256 * 256 + unit % 256 = unit := by omega
  cases order <;> simp only [ByteOrder.bytes, List.cons_append, List.nil_append, units,
    ByteOrder.unit, hlow, hhigh, hunit]

theorem units_flatMap_append {list : List Nat} (h : ∀ unit ∈ list, unit < 0x10000)
    (rest : List UInt8) : units order (list.flatMap order.bytes ++ rest) =
      list ++ units order rest := by
  induction list with
  | nil => rfl
  | cons unit list ih =>
    obtain ⟨hunit, hlist⟩ := List.forall_mem_cons.mp h
    rw [List.flatMap_cons, List.append_assoc, units_bytes_append hunit, ih hlist, List.cons_append]

/-- The units of a text are found in its bytes, and a byte without partner is no unit. -/
theorem units_encode_append (text : Text) (stray : Option UInt8) :
    units order (encode order text ++ stray.toList) = text.flatMap charUnits := by
  have hbound : ∀ unit ∈ text.flatMap charUnits, unit < 0x10000 := by
    intro unit hunit
    obtain ⟨c, -, hc⟩ := List.mem_flatMap.mp hunit
    exact lt_of_mem_charUnits hc
  have hstray : units order stray.toList = [] := by cases stray <;> rfl
  rw [encode, units_flatMap_append hbound, hstray, List.append_nil]

/-! ### Units and characters -/

theorem decodeLossy_single {unit : Nat} (h : isHighSurrogate unit = false) (rest : List Nat) :
    decodeLossy (unit :: rest) = single unit :: decodeLossy rest := by
  cases rest with
  | nil => rfl
  | cons next rest => rw [decodeLossy, h, Bool.false_and, if_neg Bool.false_ne_true]

/-- Two surrogates in order are one character. -/
theorem decodeLossy_pair {high low : Nat} (hhigh : isHighSurrogate high = true)
    (hlow : isLowSurrogate low = true) (rest : List Nat) :
    decodeLossy (high :: low :: rest) = pair high low :: decodeLossy rest := by
  rw [decodeLossy, hhigh, hlow]
  rfl

/-- The units of a character are decoded to it, whatever comes behind them. -/
theorem decodeLossy_charUnits_append (c : Char) (rest : List Nat) :
    decodeLossy (charUnits c ++ rest) = c :: decodeLossy rest := by
  -- No character is numbered like a surrogate, so the units of a pair cannot be taken for one.
  have hvalid : c.toNat < 0xD800 ∨ 0xDFFF < c.toNat ∧ c.toNat < 0x110000 := c.valid
  have hchar : Char.ofNat c.toNat = c := Char.ofNat_toNat c
  rw [charUnits]
  generalize c.toNat = n at hvalid hchar ⊢
  split_ifs with hsingle
  · have hhigh : isHighSurrogate n = false := by
      rw [isHighSurrogate, Bool.and_eq_false_iff, decide_eq_false_iff_not, decide_eq_false_iff_not]
      omega
    have hlow : isLowSurrogate n = false := by
      rw [isLowSurrogate, Bool.and_eq_false_iff, decide_eq_false_iff_not, decide_eq_false_iff_not]
      omega
    rw [List.singleton_append, decodeLossy_single hhigh, single, hhigh, hlow,
      if_neg (by decide), hchar]
  · have hhigh : isHighSurrogate (0xD800 + (n - 0x10000) / 0x400) = true := by
      rw [isHighSurrogate, Bool.and_eq_true, decide_eq_true_eq, decide_eq_true_eq]
      omega
    have hlow : isLowSurrogate (0xDC00 + (n - 0x10000) % 0x400) = true := by
      rw [isLowSurrogate, Bool.and_eq_true, decide_eq_true_eq, decide_eq_true_eq]
      omega
    have hpoint : 0x10000 + (0xD800 + (n - 0x10000) / 0x400 - 0xD800) * 0x400 +
        (0xDC00 + (n - 0x10000) % 0x400 - 0xDC00) = n := by omega
    rw [List.cons_append, List.singleton_append, decodeLossy_pair hhigh hlow, pair, hpoint, hchar]

/-- The units of a text are decoded to the text. -/
theorem decodeLossy_flatMap_charUnits (text : Text) :
    decodeLossy (text.flatMap charUnits) = text := by
  induction text with
  | nil => rfl
  | cons c text ih => rw [List.flatMap_cons, decodeLossy_charUnits_append, ih]

/-- The bytes of a text are decoded to the text, also if one more byte stands behind them. -/
theorem decodeLossy_units_encode (text : Text) (stray : Option UInt8) :
    decodeLossy (units order (encode order text ++ stray.toList)) = text := by
  rw [units_encode_append, decodeLossy_flatMap_charUnits]

end SignalScript.Utf16
