import SignalScript.Text.Basic

/-!
# UTF-8

Bytes are decoded one at a time. A sequence that is broken off, too long or out of range is
malformed: all its bytes up to the first one that cannot continue it count as one malformed
piece, and decoding goes on with that byte.

## Main definitions

* `Utf8.decode` — the characters and malformed pieces of a byte sequence, in order
* `Utf8.decodeLossy` — malformed pieces become the replacement character
* `Utf8.decode?` — the text of a byte sequence without malformed pieces
-/

namespace SignalScript

/-- The character that stands for input that could not be decoded. -/
def replacementCharacter : Char := '\ufffd'

namespace Utf8

/-- A sequence that has begun: the bits read so far, the number of bytes still to come, and the
bounds of the next of them. -/
structure Open where
  bits : Nat
  missing : Nat
  least : Nat
  greatest : Nat

/-- What one byte leads to. -/
inductive Step
  | char (c : Char)
  | more (state : Open)
  | malformed

/-- A byte that starts a sequence. -/
def lead (byte : UInt8) : Step :=
  let b := byte.toNat
  if b < 0x80 then .char (Char.ofNat b)
  else if b < 0xC2 then .malformed
  else if b < 0xE0 then .more ⟨b - 0xC0, 1, 0x80, 0xBF⟩
  else if b = 0xE0 then .more ⟨b - 0xE0, 2, 0xA0, 0xBF⟩
  else if b = 0xED then .more ⟨b - 0xE0, 2, 0x80, 0x9F⟩
  else if b < 0xF0 then .more ⟨b - 0xE0, 2, 0x80, 0xBF⟩
  else if b = 0xF0 then .more ⟨b - 0xF0, 3, 0x90, 0xBF⟩
  else if b < 0xF4 then .more ⟨b - 0xF0, 3, 0x80, 0xBF⟩
  else if b = 0xF4 then .more ⟨b - 0xF0, 3, 0x80, 0x8F⟩
  else .malformed

/-- A byte that comes after a sequence has begun. -/
def Open.next (state : Open) (byte : UInt8) : Step :=
  let b := byte.toNat
  if state.least ≤ b && b ≤ state.greatest then
    let bits := state.bits * 64 + (b - 0x80)
    if state.missing ≤ 1 then .char (Char.ofNat bits)
    else .more ⟨bits, state.missing - 1, 0x80, 0xBF⟩
  else .malformed

/-- The pieces that follow when the sequence `state`, if any, has begun; `none` stands for a
malformed piece. -/
def decodeFrom : Option Open → List UInt8 → List (Option Char)
  | none, [] => []
  | some _, [] => [none]
  | none, byte :: rest =>
    match lead byte with
    | .char c => some c :: decodeFrom none rest
    | .more state => decodeFrom (some state) rest
    | .malformed => none :: decodeFrom none rest
  | some state, byte :: rest =>
    match state.next byte with
    | .char c => some c :: decodeFrom none rest
    | .more state => decodeFrom (some state) rest
    | .malformed =>
      none ::
        match lead byte with
        | .char c => some c :: decodeFrom none rest
        | .more state => decodeFrom (some state) rest
        | .malformed => none :: decodeFrom none rest

/-- The characters of a byte sequence, with `none` for each malformed piece. -/
def decode (bytes : List UInt8) : List (Option Char) := decodeFrom none bytes

/-- The text of a byte sequence, with the replacement character for each malformed piece. -/
def decodeLossy (bytes : List UInt8) : Text :=
  (decode bytes).map fun piece => piece.getD replacementCharacter

/-- The text of a well-formed byte sequence. -/
def decode? (bytes : List UInt8) : Option Text := (decode bytes).mapM id

end Utf8

end SignalScript
