import SignalScript.Proofs.Text.Trimming
import SignalScript.Route.Config

/-!
# Written configurations

The lines of a configuration as their author writes them: a directive in any case, its arguments in
quotes behind blanks, and between such lines whatever else a file may hold. A directive without
arguments is malformed, and so is a route directory that is several; other lines are passed over.

## Main definitions

* `Written.quoted` — an argument in quotes
* `Written.ConfigLine` — the lines, with their `text`
* `Written.ConfigLine.stated` — the arguments that a line has for a directive
* `Written.ConfigLine.isMalformed` — the lines that are reported
-/

namespace SignalScript

open Text

namespace Written

/-- A text without line feeds. -/
structure LineText where
  text : Text
  lineFeed_notMem : '\n' ∉ text

/-- Blanks within a line, or none. -/
structure Margin extends LineText where
  isBlank_of_mem : ∀ c ∈ text, isBlank c = true

/-- The blanks of ASCII that separate two parts of a line. -/
structure Gap extends LineText where
  ne_nil : text ≠ []
  isAsciiBlank_of_mem : ∀ c ∈ text, isAsciiBlank c = true

/-- The directives that are understood. -/
inductive Directive
  | routeDir
  | signalType
  | scriptFile
  deriving DecidableEq, Repr

/-- The word of a directive, in small letters. -/
def Directive.word : Directive → Text
  | .routeDir => "routedir".toList
  | .signalType => "signaltype".toList
  | .scriptFile => "scriptfile".toList

/-! ### Arguments -/

/-- The character, behind a backslash if it would mean something else. -/
def escaped (c : Char) : Text := if c = '"' ∨ c = '\\' then ['\\', c] else [c]

/-- The text in quotes. -/
def quoted (text : Text) : Text := '"' :: (text.flatMap escaped ++ ['"'])

/-- An argument with the blanks in front of it. -/
structure QuotedArgument where
  gap : Gap
  value : LineText

/-- The blanks and the argument in quotes. -/
def QuotedArgument.text (argument : QuotedArgument) : Text :=
  argument.gap.text ++ quoted argument.value.text

/-- A quotation is open behind the text, when one is open in front of it if `inQuotes` holds. -/
def leavesQuoteOpen : (inQuotes : Bool) → Text → Bool
  | true, '\\' :: _ :: rest => leavesQuoteOpen true rest
  | inQuotes, c :: rest => leavesQuoteOpen (if c = '"' then !inQuotes else inQuotes) rest
  | inQuotes, [] => inQuotes

/-- A blank outside quotes stands between two parts of the text. -/
def HoldsSeveral (text : Text) : Prop :=
  ∃ front c back, trim text = front ++ c :: back ∧ isAsciiBlank c = true ∧
    leavesQuoteOpen false front = false

/-! ### Lines -/

/-- A directive behind a slash, in any case. -/
structure Opening (directive : Directive) where
  indent : Margin
  spelling : Text
  isSpelling : asciiLower spelling = directive.word

/-- The blanks in front, the slash and the word. -/
def Opening.text {directive : Directive} (opening : Opening directive) : Text :=
  opening.indent.text ++ '/' :: opening.spelling

/-- The line begins with a slash, but the word behind it is no known directive. -/
def IsUnknown (line : Text) : Prop :=
  ∃ word behind, trim line = '/' :: (word ++ behind) ∧ (∀ c ∈ word, isAsciiBlank c = false) ∧
    (∀ c ∈ behind.head?, isAsciiBlank c = true) ∧ ∀ directive : Directive,
      asciiLower word ≠ directive.word

/-- A line of a configuration. -/
inductive ConfigLine
  | blank (margin : Margin)
  | comment (indent : Margin) (behind : LineText)
  | unknown (line : LineText) (isUnknown : IsUnknown line.text)
  /-- A directive without arguments. -/
  | bare (directive : Directive) (opening : Opening directive) (margin : Margin)
  /-- A route directory that is several. -/
  | crowded (opening : Opening .routeDir) (gap : Gap) (arguments : LineText)
    (several : HoldsSeveral arguments.text)
  /-- A directive with its arguments; a route directory has one. -/
  | stating (directive : Directive) (opening : Opening directive) (first : QuotedArgument)
    (more : List QuotedArgument) (single : directive = .routeDir → more = []) (margin : Margin)

namespace ConfigLine

/-- The text of a line, without its end. -/
def text : ConfigLine → Text
  | .blank margin => margin.text
  | .comment indent behind => indent.text ++ ';' :: behind.text
  | .unknown line _ => line.text
  | .bare _ opening margin => opening.text ++ margin.text
  | .crowded opening gap arguments _ => opening.text ++ (gap.text ++ arguments.text)
  | .stating _ opening first more _ margin =>
    opening.text ++ ((first :: more).flatMap QuotedArgument.text ++ margin.text)

/-- The arguments that the line has for a directive. -/
def stated (directive : Directive) : ConfigLine → List Text
  | .stating found _ first more _ _ =>
    if found = directive then (first :: more).map fun argument => argument.value.text else []
  | _ => []

/-- The line is a known directive with the wrong number of arguments. -/
def isMalformed : ConfigLine → Bool
  | .bare _ _ _ | .crowded _ _ _ _ => true
  | _ => false

end ConfigLine

/-- The text of a configuration with these lines. -/
def configText (lines : List ConfigLine) : Text := joinedBy ['\n'] (lines.map ConfigLine.text)

/-! ### Characters of lines -/

theorem isBlank_of_isAsciiBlank {c : Char} (h : isAsciiBlank c = true) : isBlank c = true := by
  simp only [isAsciiBlank, Bool.or_eq_true, beq_iff_eq] at h
  rcases h with (((rfl | rfl) | rfl) | rfl) | rfl <;> rfl

/-- Blanks have no case. -/
theorem toLower_of_isBlank {c : Char} (h : isBlank c = true) : c.toLower = c := by
  unfold Char.toLower
  rw [dif_neg]
  rintro ⟨hlow, hhigh⟩
  have hlow : 0x41 ≤ c.toNat := hlow
  have hhigh : c.toNat ≤ 0x5A := hhigh
  simp only [isBlank, inRanges, blankRanges, List.any_cons, List.any_nil, Bool.or_false,
    Bool.or_eq_true, Bool.and_eq_true, decide_eq_true_eq] at h
  omega

namespace Opening

variable {directive : Directive} (opening : Opening directive)

/-- No character of a directive is a blank. -/
theorem isBlank_of_mem_spelling {c : Char} (h : c ∈ opening.spelling) : isBlank c = false := by
  by_contra hblank
  rw [Bool.not_eq_false] at hblank
  -- A blank would stand in the word itself, since it has no case.
  have hmem : c ∈ directive.word := by
    rw [← opening.isSpelling, ← toLower_of_isBlank hblank]
    exact List.mem_map_of_mem h
  have hword : directive.word.all (fun d => !isBlank d) = true := by cases directive <;> rfl
  have hfree := List.all_eq_true.mp hword c hmem
  rw [hblank] at hfree
  cases hfree

theorem lineFeed_notMem_text : '\n' ∉ opening.text := by
  rw [text, List.mem_append, List.mem_cons]
  rintro (h | h | h)
  · exact opening.indent.lineFeed_notMem h
  · cases h
  · cases opening.isBlank_of_mem_spelling h

end Opening

theorem lineFeed_notMem_quoted {text : Text} (h : '\n' ∉ text) : '\n' ∉ quoted text := by
  have hescaped : '\n' ∉ text.flatMap escaped := by
    intro hmem
    obtain ⟨c, hc, hfeed⟩ := List.mem_flatMap.mp hmem
    rw [escaped] at hfeed
    split at hfeed
    · simp at hfeed
      exact h (hfeed ▸ hc)
    · exact h (List.mem_singleton.mp hfeed ▸ hc)
  simp [quoted, hescaped]

theorem QuotedArgument.lineFeed_notMem_text (argument : QuotedArgument) : '\n' ∉ argument.text := by
  rw [text, List.mem_append]
  rintro (h | h)
  · exact argument.gap.lineFeed_notMem h
  · exact lineFeed_notMem_quoted argument.value.lineFeed_notMem h

/-- A line is no more than a line. -/
theorem ConfigLine.lineFeed_notMem_text (line : ConfigLine) : '\n' ∉ line.text := by
  cases line with
  | blank margin => exact margin.lineFeed_notMem
  | comment indent behind =>
    simp [text, indent.lineFeed_notMem, behind.lineFeed_notMem]
  | unknown line h => exact line.lineFeed_notMem
  | bare directive opening margin =>
    simp [text, opening.lineFeed_notMem_text, margin.lineFeed_notMem]
  | crowded opening gap arguments h =>
    simp [text, opening.lineFeed_notMem_text, gap.lineFeed_notMem, arguments.lineFeed_notMem]
  | stating directive opening first more single margin =>
    simp [text, opening.lineFeed_notMem_text, margin.lineFeed_notMem,
      QuotedArgument.lineFeed_notMem_text]

end Written

end SignalScript
