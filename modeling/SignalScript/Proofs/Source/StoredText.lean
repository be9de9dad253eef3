import SignalScript.Proofs.Source.ScriptLine
import SignalScript.Proofs.Source.Utf16Encoding
import SignalScript.Proofs.Source.Utf8Encoding

/-!
# Ways to store a text

A text can be stored in UTF-8, with or without a byte order mark, or in UTF-16 of either byte order
behind its mark, and its lines can end with a line feed alone or with a carriage return in front of
it. The logical lines are the same in all these files: each decoder gives the text back, and the
carriage return is a blank at the end of its line: a comment swallows it, or it is trimmed off.

## Main definitions

* `StoredForm`, `StoredForm.bytes` — the ways to store a text, and the file
* `LineEnd`, `LineEnd.write` — the ways to end a line, and the text with these ends

## Main results

* `sourceText_bytes` — the text of a file is the text that was stored in it
* `logicalLinesFrom_write` — the ends of the lines change no logical line
* `logicalLines_bytes` — however a text is stored, its logical lines are those of plain UTF-8
-/

namespace SignalScript

open Text

/-- A way to store a text in a file. -/
inductive StoredForm
  /-- In UTF-8, perhaps behind a byte order mark. -/
  | utf8 (marked : Bool)
  /-- In UTF-16 behind a byte order mark, perhaps with one more byte at the end. -/
  | utf16 (order : Utf16.ByteOrder) (stray : Option UInt8)
  deriving DecidableEq, Repr

/-- The byte order mark in this order. -/
def Utf16.ByteOrder.mark : ByteOrder → List UInt8
  | .littleEndian => [0xFF, 0xFE]
  | .bigEndian => [0xFE, 0xFF]

/-- The file that a text is stored in. -/
def StoredForm.bytes (text : Text) : StoredForm → List UInt8
  | .utf8 false => Utf8.encode text
  | .utf8 true => [0xEF, 0xBB, 0xBF] ++ Utf8.encode text
  | .utf16 order stray => order.mark ++ (Utf16.encode order text ++ stray.toList)

/-- A way to end a line. -/
inductive LineEnd
  | lineFeed
  | carriageReturn
  deriving DecidableEq, Repr

/-- The text with these ends of lines. -/
def LineEnd.write : LineEnd → Text → Text
  | .lineFeed, text => text
  | .carriageReturn, text => text.flatMap fun c => if c = '\n' then ['\r', '\n'] else [c]

/-- The text of a file is the text that was stored in it, unless it begins with a byte order mark of
its own. -/
theorem sourceText_bytes (form : StoredForm) {text : Text} (h : text.head? ≠ some '\ufeff') :
    sourceText (form.bytes text) = text := by
  match form with
  | .utf8 false => exact sourceText_encode h
  | .utf8 true => exact Utf8.decodeLossy_encode text
  | .utf16 .littleEndian stray => exact Utf16.decodeLossy_units_encode text stray
  | .utf16 .bigEndian stray => exact Utf16.decodeLossy_units_encode text stray

/-! ### Ends of lines -/

/-- A text has the same lines with other ends, but for the carriage returns. -/
theorem endsAlike_physicalLines_write (ends : LineEnd) (text : Text) :
    List.Forall₂ EndsAlike (physicalLines text) (physicalLines (ends.write text)) := by
  cases ends with
  | lineFeed => exact List.forall₂_same.mpr fun line _ => .refl line
  | carriageReturn =>
    induction text with
    | nil => exact .cons (.refl []) .nil
    | cons c text ih =>
      have hcons : LineEnd.write .carriageReturn (c :: text) =
          (if c = '\n' then ['\r', '\n'] else [c]) ++ LineEnd.write .carriageReturn text :=
        List.flatMap_cons
      rw [hcons, physicalLines, physicalLines, pieces]
      split
      · rename_i hfeed
        rw [List.cons_append, pieces, if_neg (by decide), List.cons_append, pieces, if_pos rfl]
        exact .cons ⟨['\r'], .inr (.inl rfl), rfl⟩ ih
      · rename_i hfeed
        rw [List.singleton_append, pieces, if_neg hfeed]
        -- The character goes to the first line on both sides.
        cases hlines : pieces '\n' text with
        | nil => exact absurd hlines (pieces_ne_nil _ _)
        | cons line lines =>
          rw [physicalLines, physicalLines, hlines] at ih
          obtain ⟨line', lines', hline, hmore, hlines'⟩ := List.forall₂_cons_left_iff.mp ih
          rw [hlines']
          exact .cons (hline.cons c) hmore

/-- The ends of the lines change no logical line. -/
theorem logicalLinesFrom_write (ends : LineEnd) (text : Text) (number : Nat) (inside : Bool) :
    logicalLinesFrom number inside (physicalLines (ends.write text)) =
      logicalLinesFrom number inside (physicalLines text) :=
  logicalLinesFrom_of_endsAlike (endsAlike_physicalLines_write ends text) number inside

/-! ### Files -/

theorem head?_write_ne {text : Text} (ends : LineEnd) (h : text.head? ≠ some '\ufeff') :
    (ends.write text).head? ≠ some '\ufeff' := by
  cases ends with
  | lineFeed => exact h
  | carriageReturn =>
    cases text with
    | nil => exact h
    | cons c text =>
      rw [LineEnd.write, List.flatMap_cons]
      split
      · exact fun hhead => nomatch Option.some.inj hhead
      · exact h

/-- The logical lines of a file depend neither on the encoding of its text nor on the ends of its
lines: they are those of the text in UTF-8 with line feeds. -/
theorem logicalLines_bytes (form : StoredForm) (ends : LineEnd) {text : Text}
    (h : text.head? ≠ some '\ufeff') :
    logicalLines (form.bytes (ends.write text)) = logicalLines (Utf8.encode text) := by
  rw [logicalLines_eq, sourceText_bytes form (head?_write_ne ends h), logicalLinesFrom_write,
    logicalLines_encode h]

/-- A comment with a character outside the first plane. -/
def planeText : Text :=
  "state = 1; /* ".toList ++ Char.ofNat 0x1F682 :: "\n */ x = 2;\n\nif(x)".toList

theorem logicalLines_bytes_planeText :
    logicalLines (StoredForm.bytes (LineEnd.carriageReturn.write planeText)
      (.utf16 .bigEndian (some 0x20))) =
      [⟨"STATE = 1;".toList, 1⟩, ⟨"X = 2;".toList, 2⟩, ⟨"IF (X)".toList, 4⟩] := by
  have hplain : logicalLines (Utf8.encode planeText) =
      [⟨"STATE = 1;".toList, 1⟩, ⟨"X = 2;".toList, 2⟩, ⟨"IF (X)".toList, 4⟩] := by decide +kernel
  exact (logicalLines_bytes _ _ (by decide)).trans hplain

end SignalScript
