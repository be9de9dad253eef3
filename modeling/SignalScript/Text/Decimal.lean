import SignalScript.Text.Basic

/-!
# Decimal numbers

Whole numbers are written with an optional sign and at least one ASCII digit; blanks are not
allowed. A number outside the range that is asked for is an error, reported at the first digit
that leads out of the range, so a later stray character goes unnoticed.

## Main definitions

* `Decimal.Error` — why a text is no number of the range
* `Decimal.read` — the number written in a text
* `Decimal.readInt32`, `Decimal.readNat?` — the ranges in use
* `Decimal.write` — a number as text, with a minus sign where needed
-/

namespace SignalScript

namespace Decimal

/-- Why a text is not read as a number. -/
inductive Error
  | empty
  | invalidDigit
  | tooLarge
  | tooSmall
  deriving DecidableEq, Repr

/-- The wording of an error. -/
def Error.message : Error → String
  | .empty => "cannot parse integer from empty string"
  | .invalidDigit => "invalid digit found in string"
  | .tooLarge => "number too large to fit in target type"
  | .tooSmall => "number too small to fit in target type"

/-- The value of an ASCII digit. -/
def digit? (c : Char) : Option Nat := if c.isDigit then some (c.toNat - '0'.toNat) else none

/-- Continues a number, whose digits so far give `total`, away from zero in the positive
direction, up to `highest`. -/
def readUp (highest : Int) (total : Int) : Text → Except Error Int
  | [] => .ok total
  | c :: rest =>
    match digit? c with
    | none => .error .invalidDigit
    | some d =>
      if highest < total * 10 + d then .error .tooLarge else readUp highest (total * 10 + d) rest

/-- Continues a number in the negative direction, down to `lowest`. -/
def readDown (lowest : Int) (total : Int) : Text → Except Error Int
  | [] => .ok total
  | c :: rest =>
    match digit? c with
    | none => .error .invalidDigit
    | some d =>
      if total * 10 - d < lowest then .error .tooSmall else readDown lowest (total * 10 - d) rest

/-- The number between `lowest` and `highest` that the text spells. -/
def read (lowest highest : Int) : Text → Except Error Int
  | [] => .error .empty
  | ['+'] => .error .invalidDigit
  | ['-'] => .error .invalidDigit
  | '+' :: digits => readUp highest 0 digits
  | '-' :: digits => readDown lowest 0 digits
  | digits => readUp highest 0 digits

/-- The number of 32 bits that the text spells. -/
def readInt32 (text : Text) : Except Error Int32 :=
  (read (-2147483648) 2147483647 text).map Int32.ofInt

/-- The number of 32 bits that the text spells, if any. -/
def readInt32? (text : Text) : Option Int32 := (readInt32 text).toOption

/-- Continues a natural number of any size. -/
def readDigits? (total : Nat) : Text → Option Nat
  | [] => some total
  | c :: rest => (digit? c).bind fun d => readDigits? (total * 10 + d) rest

/-- The natural number that the text spells, with an optional plus sign. -/
def readNat? : Text → Option Nat
  | [] => none
  | ['+'] => none
  | '+' :: digits => readDigits? 0 digits
  | digits => readDigits? 0 digits

/-- The digits of a natural number. -/
def writeNat (n : Nat) : Text := Nat.toDigits 10 n

/-- The digits of a number, after a minus sign if it is negative. -/
def write : Int → Text
  | .ofNat n => writeNat n
  | .negSucc n => '-' :: writeNat (n + 1)

end Decimal

end SignalScript
