/-!
# Text

Script text is handled as a list of characters: every reader in this library works from the front
of such a list and hands on what follows.

Properties of characters are given by tables of code point ranges. Blanks are the characters with
the Unicode property White_Space: they separate words and are dropped from both ends of a line. The
zero width space and the byte order mark are not blanks. A second, narrower class holds the blanks
of ASCII, without the vertical tab; it separates the words of a configuration line.

## Main definitions

* `Text.inRanges` — a character lies in one of several ranges of code points
* `Text.isBlank`, `Text.isAsciiBlank` — the two classes of blanks
* `Text.trim`, `Text.trimStart`, `Text.trimEnd` — drop blanks at the ends
* `Text.cut?`, `Text.cutWhere?`, `Text.cutLast?` — split in two at a character
* `Text.pieces` — split at every occurrence of a character
* `Text.joinedBy` — put texts side by side with a separator

## Main results

* `Text.length_trim_le` — trimming never lengthens a text
* `Text.cut?_eq_some` — a cut removes exactly the character cut at
* `Text.joinedBy_pieces` — the pieces of a text, put back together, are the text
-/

namespace SignalScript

/-- A sequence of characters. -/
abbrev Text := List Char

namespace Text

/-- Of two different texts one comes first. -/
instance : @Std.Trichotomous Text (· < ·) where
  trichotomous _ _ hleft hright := List.le_antisymm hright hleft

/-! ### Classes of characters -/

/-- First and last code point of a run of characters. -/
abbrev CodeRange := Nat × Nat

/-- The character lies in one of the ranges. -/
def inRanges (ranges : List CodeRange) (c : Char) : Bool :=
  ranges.any fun range => range.1 ≤ c.toNat && c.toNat ≤ range.2

/-- Code points with the property White_Space. -/
def blankRanges : List CodeRange := [
  (0x0009, 0x000D), (0x0020, 0x0020), (0x0085, 0x0085), (0x00A0, 0x00A0), (0x1680, 0x1680),
  (0x2000, 0x200A), (0x2028, 0x2029), (0x202F, 0x202F), (0x205F, 0x205F), (0x3000, 0x3000)]

/-- The character is white space. -/
def isBlank (c : Char) : Bool := inRanges blankRanges c

/-- The character is a space, tab, line feed, form feed or carriage return. -/
def isAsciiBlank (c : Char) : Bool :=
  c == ' ' || c == '\t' || c == '\n' || c == '\x0c' || c == '\r'

/-! ### Parts of texts -/

/-- The text as a string. -/
def string (text : Text) : String := String.ofList text

/-- Drops the blanks in front. -/
def trimStart (text : Text) : Text := text.dropWhile isBlank

/-- Drops the blanks at the end. -/
def trimEnd (text : Text) : Text :=
  text.foldr (fun c rest => if rest.isEmpty && isBlank c then [] else c :: rest) []

/-- Drops the blanks at both ends. -/
def trim (text : Text) : Text := trimEnd (trimStart text)

/-- What follows `stem`, if the text begins with it. -/
def dropStem? (stem text : Text) : Option Text := stem.isPrefixOf? text

/-- What follows one leading `c`, or the text itself if it begins otherwise. -/
def dropLeading (c : Char) : Text → Text
  | [] => []
  | d :: rest => if d = c then rest else d :: rest

/-- The parts before and after the first character that satisfies `p`, with that character. -/
def cutWhere? (p : Char → Bool) : Text → Option (Text × Char × Text)
  | [] => none
  | c :: rest =>
    if p c then some ([], c, rest)
    else (cutWhere? p rest).map fun (before, found, after) => (c :: before, found, after)

/-- The parts before and after the first `c`. -/
def cut? (c : Char) : Text → Option (Text × Text)
  | [] => none
  | d :: rest =>
    if d = c then some ([], rest)
    else (cut? c rest).map fun (before, after) => (d :: before, after)

/-- The part before the last `c`. -/
def cutLast? (c : Char) : Text → Option Text
  | [] => none
  | d :: rest =>
    match cutLast? c rest with
    | some before => some (d :: before)
    | none => if d = c then some [] else none

/-- The parts between the occurrences of `c`: one more than there are occurrences. -/
def pieces (c : Char) : Text → List Text
  | [] => [[]]
  | d :: rest =>
    if d = c then [] :: pieces c rest
    else
      match pieces c rest with
      | [] => [[d]]
      | piece :: more => (d :: piece) :: more

/-- The texts in order, with `separator` between neighbours. -/
def joinedBy (separator : Text) : List Text → Text
  | [] => []
  | [text] => text
  | text :: more => text ++ separator ++ joinedBy separator more

/-- Number of bytes of the text in UTF-8. -/
def byteLength (text : Text) : Nat := text.foldr (fun c bytes => c.utf8Size + bytes) 0

@[simp] theorem trimEnd_nil : trimEnd [] = [] := rfl

/-- A blank at the end goes only if nothing is kept behind it. -/
theorem trimEnd_cons (c : Char) (text : Text) :
    trimEnd (c :: text) =
      if (trimEnd text).isEmpty && isBlank c then [] else c :: trimEnd text := rfl

theorem length_trimStart_le (text : Text) : (trimStart text).length ≤ text.length :=
  (List.dropWhile_sublist _).length_le

theorem length_trimEnd_le (text : Text) : (trimEnd text).length ≤ text.length := by
  induction text with
  | nil => exact Nat.le_refl _
  | cons c rest ih =>
    rw [trimEnd_cons]
    split
    · exact Nat.zero_le _
    · exact Nat.succ_le_succ ih

/-- Trimming never lengthens a text. -/
theorem length_trim_le (text : Text) : (trim text).length ≤ text.length :=
  Nat.le_trans (length_trimEnd_le _) (length_trimStart_le _)

/-- What follows a stem is the text without that stem. -/
theorem dropStem?_eq_some {stem text rest : Text} (h : dropStem? stem text = some rest) :
    text = stem ++ rest := by
  induction stem generalizing text with
  | nil => exact Option.some.inj h
  | cons c stem ih =>
    cases text with
    | nil => cases h
    | cons d text =>
      change (if c == d then dropStem? stem text else none) = some rest at h
      split at h
      · rename_i hc
        rw [eq_of_beq hc, ih h, List.cons_append]
      · cases h

/-- A cut at `c` removes one `c` and nothing else. -/
theorem cut?_eq_some {c : Char} {text before after : Text}
    (h : cut? c text = some (before, after)) :
    text = before ++ c :: after := by
  induction text generalizing before with
  | nil => simp [cut?] at h
  | cons d rest ih =>
    unfold cut? at h
    split at h
    · simp_all
    · obtain ⟨⟨b, a⟩, hb, hab⟩ := Option.map_eq_some_iff.mp h
      simp only [Prod.mk.injEq] at hab
      obtain ⟨rfl, rfl⟩ := hab
      rw [ih hb, List.cons_append]

/-- Both sides of a cut are shorter than the text. -/
theorem cut?_length {c : Char} {text before after : Text} (h : cut? c text = some (before, after)) :
    text.length = before.length + after.length + 1 := by
  rw [cut?_eq_some h]
  simp only [List.length_append, List.length_cons]
  omega

/-- Even the empty text is one piece. -/
theorem pieces_ne_nil (c : Char) (text : Text) : pieces c text ≠ [] := by
  cases text with
  | nil => simp [pieces]
  | cons d rest =>
    unfold pieces
    split
    · simp
    · split <;> simp

/-- The pieces of a text, with the character they were split at between them, are the text. -/
theorem joinedBy_pieces (c : Char) (text : Text) : joinedBy [c] (pieces c text) = text := by
  induction text with
  | nil => rfl
  | cons d rest ih =>
    unfold pieces
    split
    · rename_i h
      cases hp : pieces c rest with
      | nil => exact absurd hp (pieces_ne_nil c rest)
      | cons piece more =>
        rw [hp] at ih
        simp [joinedBy, ih, h]
    · cases hp : pieces c rest with
      | nil => exact absurd hp (pieces_ne_nil c rest)
      | cons piece more =>
        rw [hp] at ih
        cases more <;> simp_all [joinedBy]

end Text

end SignalScript
