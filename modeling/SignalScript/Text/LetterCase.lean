import SignalScript.Text.Basic
import SignalScript.Text.LetterCase.Table
import SignalScript.Text.LetterCase.Context

/-!
# Letter case

Full Unicode case conversion of texts. Scripts are written in any case and read in capitals;
signal types are looked up by their small letters.

Capitals are taken letter by letter, and some letters have a capital form of several characters.
Small letters depend on the surroundings in one case only: a capital sigma that ends a word is
written `ς`, any other `σ`.

## Main definitions

* `Text.upper`, `Text.lower` — the text in capitals, in small letters
* `Text.asciiUpper`, `Text.asciiLower` — the same for the letters of ASCII alone
-/

namespace SignalScript.Text

/-- The code point of the other case in a list of runs, or `n` itself. -/
def shiftedBy (runs : List CaseRun) (n : Nat) : Nat :=
  match runs.find? (·.holds n) with
  | some run => run.image n
  | none => n

/-- The capital form of a character. -/
def upperOf (c : Char) : Text :=
  if c.toNat < 0x80 then [c.toUpper]
  else
    match upperExpansions.lookup c.toNat with
    | some capitals => capitals.map Char.ofNat
    | none => [Char.ofNat (shiftedBy toUpperRuns c.toNat)]

/-- The text in capitals. -/
def upper (text : Text) : Text := text.flatMap upperOf

/-- The small form of a character, without regard to its surroundings. -/
def lowerOf (c : Char) : Text :=
  if c.toNat < 0x80 then [c.toLower]
  else if c = 'İ' then ['i', '\u0307']
  else [Char.ofNat (shiftedBy toLowerRuns c.toNat)]

/-- The nearest character that is not passed over has case. -/
def meetsCased (text : Text) : Bool :=
  match text.dropWhile isCaseIgnorable with
  | [] => false
  | c :: _ => isCased c

/-- The text in small letters, when `before` stands in front of it, last character first. -/
def lowerAfter (before : Text) : Text → Text
  | [] => []
  | c :: rest =>
    (if c = 'Σ' then
      if meetsCased before && !meetsCased rest then ['ς'] else ['σ']
    else lowerOf c) ++ lowerAfter (c :: before) rest

/-- The text in small letters. -/
def lower (text : Text) : Text := lowerAfter [] text

/-- The text with the letters of ASCII in capitals. -/
def asciiUpper (text : Text) : Text := text.map Char.toUpper

/-- The text with the letters of ASCII in small letters. -/
def asciiLower (text : Text) : Text := text.map Char.toLower

end SignalScript.Text
