import SignalScript.Text.Utf8

/-!
# UTF-16

Sixteen-bit units in either byte order. Two surrogates that pair up make one character; a
surrogate without partner becomes the replacement character, and so does each of two that stand
in the wrong order. A last byte without partner is dropped.

## Main definitions

* `Utf16.units` — the units of a byte sequence
* `Utf16.decodeLossy` — the text of a sequence of units
-/

namespace SignalScript.Utf16

/-- Which byte of a unit comes first. -/
inductive ByteOrder
  | littleEndian
  | bigEndian
  deriving DecidableEq, Repr

/-- The unit made of two bytes. -/
def ByteOrder.unit (order : ByteOrder) (first second : UInt8) : Nat :=
  match order with
  | .littleEndian => second.toNat * 256 + first.toNat
  | .bigEndian => first.toNat * 256 + second.toNat

/-- The units of a byte sequence. -/
def units (order : ByteOrder) : List UInt8 → List Nat
  | first :: second :: rest => order.unit first second :: units order rest
  | _ => []

/-- The unit is the first of a pair. -/
def isHighSurrogate (unit : Nat) : Bool := 0xD800 ≤ unit && unit < 0xDC00

/-- The unit is the second of a pair. -/
def isLowSurrogate (unit : Nat) : Bool := 0xDC00 ≤ unit && unit < 0xE000

/-- The character that two surrogates make. -/
def pair (high low : Nat) : Char :=
  Char.ofNat (0x10000 + (high - 0xD800) * 0x400 + (low - 0xDC00))

/-- The character of a unit that is not part of a pair. -/
def single (unit : Nat) : Char :=
  if isHighSurrogate unit || isLowSurrogate unit then replacementCharacter else Char.ofNat unit

/-- The text of a sequence of units. -/
def decodeLossy : List Nat → Text
  | [] => []
  | [unit] => [single unit]
  | unit :: next :: rest =>
    if isHighSurrogate unit && isLowSurrogate next then pair unit next :: decodeLossy rest
    else single unit :: decodeLossy (next :: rest)

end SignalScript.Utf16
