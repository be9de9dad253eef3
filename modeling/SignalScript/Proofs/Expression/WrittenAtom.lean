import SignalScript.Proofs.Text.Bracket
import SignalScript.Proofs.Text.Cutting
import SignalScript.Proofs.Text.Decimal
import SignalScript.Proofs.Text.Word

/-!
# Written operands and calls

Numbers, names and calls as their author writes them, with every choice of spaces, and what each of
them means. A name means the external variable of that name; if there is none, the first local
variable of that name; and otherwise a named constant. Certain words are reserved where names stand.

## Main definitions

* `Written.Numeral`, `Written.Name` — numbers and names
* `Written.Operand`, `Written.Call`, `Written.Atom` — with their `text` and `meaning`
* `Written.Negation` — the spellings of a negation

## Main results

* `Written.Operand.read_text`, `Written.Atom.read_text` — the meaning is read back from the text
-/

namespace SignalScript

open Text

namespace Written

/-- A row of digits whose value is at most `highest`. -/
structure Numeral (highest : Nat) where
  digits : Text
  ne_nil : digits ≠ []
  isDigit : ∀ c ∈ digits, c.isDigit = true
  le : Nat.ofDigitChars 10 digits 0 ≤ highest

/-- A number of 32 bits. -/
inductive Literal
  | plain (numeral : Numeral 2147483647)
  /-- Behind a minus sign. -/
  | negative (numeral : Numeral 2147483648)

namespace Literal

/-- The digits, behind the minus sign if there is one. -/
def text : Literal → Text
  | .plain numeral => numeral.digits
  | .negative numeral => '-' :: numeral.digits

/-- The number. -/
def value : Literal → Int32
  | .plain numeral => Int32.ofInt (Nat.ofDigitChars 10 numeral.digits 0)
  | .negative numeral => Int32.ofInt (-(Nat.ofDigitChars 10 numeral.digits 0 : Int))

end Literal

/-- The word is neither a number nor a name of the vocabulary, so it can be reserved. -/
def isReservable (word : Text) : Bool :=
  (ExternalVariable.named? word).isNone && (Function.named? word).isNone &&
    (Family.resolve? word).isNone && word.any fun c => !c.isDigit

/-- A name, where some words are reserved. -/
inductive Name (reserved locals : List Text)
  | external (v : ExternalVariable)
  /-- The name of a local variable. -/
  | slot (place : Fin locals.length) (identifier : isIdentifier locals[place] = true)
      (free : locals[place] ∉ reserved)
  /-- A member of a family, behind its stem. -/
  | constant (family : Family) (place : Fin family.members.length)

variable {reserved locals : List Text}

namespace Name

/-- The name as it is spelled in a script. -/
def text : Name reserved locals → Text
  | .external v => v.name.toList
  | .slot place _ _ => locals[place]
  | .constant family place => family.stem.toList ++ family.members[place].toList

/-- What the name means: an external variable hides a local one, and a local variable hides a
constant. -/
def meaning : Name reserved locals → SignalScript.Operand
  | .external v => .external v
  | .slot place _ _ =>
    match ExternalVariable.named? locals[place] with
    | some v => .external v
    | none => .slot (locals.idxOf locals[place])
  | .constant family place =>
    match slot? locals (family.stem.toList ++ family.members[place].toList) with
    | some index => .slot index
    | none => .named family (Int32.ofNat place)

end Name

/-- A mark in front of an operand, with a number of spaces behind it. -/
def markText : Option Nat → Text
  | none => []
  | some gap => '#' :: spaces gap

/-- A number or a name, which may be marked. -/
inductive Operand (reserved locals : List Text)
  | literal (mark : Option Nat) (literal : Literal)
  | name (mark : Option Nat) (name : Name reserved locals)

namespace Operand

/-- The text without the mark. -/
def core : Operand reserved locals → Text
  | .literal _ number => number.text
  | .name _ spelled => spelled.text

/-- The mark in front, if there is one. -/
def mark : Operand reserved locals → Option Nat
  | .literal sign _ => sign
  | .name sign _ => sign

/-- The text with the mark in front. -/
def text (operand : Operand reserved locals) : Text := markText operand.mark ++ operand.core

/-- What the operand means; a mark means nothing. -/
def meaning : Operand reserved locals → SignalScript.Operand
  | .literal _ number => .constant number.value
  | .name _ spelled => spelled.meaning

/-- The operand has no minus sign. -/
def isPlain : Operand reserved locals → Bool
  | .literal _ (.negative _) => false
  | _ => true

end Operand

/-- An argument with the spaces around it. -/
structure Argument (reserved locals : List Text) where
  before : Nat
  operand : Operand reserved locals
  after : Nat

/-- The argument as it stands between commas. -/
def Argument.text (argument : Argument reserved locals) : Text :=
  spaces argument.before ++ (argument.operand.text ++ spaces argument.after)

/-- A call with as many arguments as the function takes. -/
structure Call (reserved locals : List Text) where
  function : Function
  /-- The spaces in front of the bracket and behind it. -/
  gap : Nat
  indent : Nat
  arguments : List (Argument reserved locals)
  arity : arguments.length = function.arity

namespace Call

/-- The text between the brackets. -/
def inner (call : Call reserved locals) : Text :=
  spaces call.indent ++ joinedBy [','] (call.arguments.map Argument.text)

/-- The name of the function and the arguments in brackets behind it. -/
def text (call : Call reserved locals) : Text :=
  call.function.name.toList ++ (spaces call.gap ++ '(' :: (call.inner ++ [')']))

/-- The call that the text means; spaces mean nothing. -/
def meaning (call : Call reserved locals) : SignalScript.Call :=
  ⟨call.function, call.arguments.map fun argument => argument.operand.meaning⟩

end Call

/-- An operand or a call. -/
inductive Atom (reserved locals : List Text)
  | operand (operand : Operand reserved locals)
  | call (call : Call reserved locals)

namespace Atom

/-- The text of an operand or a call. -/
def text : Atom reserved locals → Text
  | .operand o => o.text
  | .call c => c.text

/-- The operand or the call that the text means. -/
def meaning : Atom reserved locals → SignalScript.Atom
  | .operand o => .operand o.meaning
  | .call c => .call c.meaning

end Atom

/-- The spellings of a negation. -/
inductive Negation
  | absent
  /-- An exclamation mark, with a number of spaces behind it. -/
  | mark (gap : Nat)
  /-- The word `NOT` and a space, with a number of further spaces behind them. -/
  | word (gap : Nat)

namespace Negation

/-- The text of a negation, up to what it negates. -/
def text : Negation → Text
  | .absent => []
  | .mark gap => '!' :: spaces gap
  | .word gap => "NOT ".toList ++ spaces gap

/-- There is a negation, in one of its two spellings. -/
def isPresent : Negation → Bool
  | .absent => false
  | _ => true

end Negation

/-! ### Names and numbers -/

/-- A row of digits is a word. -/
theorem isWord_digits {highest : Nat} (numeral : Numeral highest) : IsWord numeral.digits :=
  ⟨numeral.ne_nil, List.all_eq_true.mpr fun c hc => isNameChar_of_isDigit (numeral.isDigit c hc)⟩

/-- No constant has the name of an external variable. -/
theorem named?_constant (family : Family) (place : Fin family.members.length) :
    ExternalVariable.named? (family.stem.toList ++ family.members[place].toList) = none := by
  revert place
  cases family <;> decide

/-- A member is found behind the stem of its family, at its own place. -/
theorem resolve?_constant (family : Family) (place : Fin family.members.length) :
    Family.resolve? (family.stem.toList ++ family.members[place].toList) =
      some (family, Int32.ofNat place) := by
  revert place
  cases family <;> decide

namespace Name

/-- A name is a word that does not begin with a digit. -/
theorem isIdentifier_text (name : Name reserved locals) : isIdentifier name.text = true := by
  cases name with
  | external v => cases v <;> rfl
  | slot place identifier free => exact identifier
  | constant family place =>
    have hall : ∀ family : Family, ∀ place : Fin family.members.length,
        isIdentifier (family.stem.toList ++ family.members[place].toList) = true := by
      intro family
      cases family <;> decide
    exact hall family place

/-- A reserved word is no name. -/
theorem text_ne (name : Name reserved locals) {word : Text} (hword : word ∈ reserved)
    (h : isReservable word = true) : name.text ≠ word := by
  simp only [isReservable, Bool.and_eq_true, Option.isNone_iff_eq_none] at h
  obtain ⟨⟨⟨hexternal, -⟩, hconstant⟩, -⟩ := h
  rintro rfl
  cases name with
  | external v =>
    rw [text, ExternalVariable.named?_name] at hexternal
    cases hexternal
  | slot place identifier free => exact free hword
  | constant family place =>
    rw [text, resolve?_constant] at hconstant
    cases hconstant

end Name

/-- A declared name has the slot of its first declaration. -/
theorem slot?_of_mem {name : Text} (h : name ∈ locals) :
    slot? locals name = some (locals.idxOf name) := by
  have htest : (fun l : Text => decide (l = name)) = (· == name) := by
    funext l
    by_cases hl : l = name <;> simp [hl]
  rw [slot?, htest]
  exact List.findIdx?_eq_some_iff_findIdx_eq.mpr ⟨List.idxOf_lt_length_of_mem h, rfl⟩

/-- A name is read as what it means. -/
theorem known?_name (name : Name reserved locals) :
    SignalScript.Operand.known? locals name.text = some name.meaning := by
  -- An identifier begins with no digit and no sign, so it is no number.
  have hnumber : Decimal.readInt32? name.text = none := by
    have hidentifier := name.isIdentifier_text
    obtain ⟨c, rest, htext, hc⟩ := (isWord_of_isIdentifier hidentifier).exists_cons
    rw [htext] at hidentifier ⊢
    simp only [isIdentifier, Bool.and_eq_true, Bool.not_eq_true'] at hidentifier
    exact Decimal.readInt32?_eq_none hidentifier.1 (ne_of_isNameChar hc rfl)
      (ne_of_isNameChar hc rfl)
  rw [SignalScript.Operand.known?, hnumber]
  cases name with
  | external v =>
    simp only [Name.text, Name.meaning, ExternalVariable.named?_name]
  | slot place identifier free =>
    simp only [Name.text, Name.meaning]
    cases ExternalVariable.named? locals[place] with
    | some v => rfl
    | none =>
      -- The first local variable of that name is found, which has the slot of the name.
      have hslot := slot?_of_mem (List.getElem_mem place.isLt)
      simp only [Fin.getElem_fin, hslot]
  | constant family place =>
    simp only [Name.text, Name.meaning, named?_constant]
    cases slot? locals (family.stem.toList ++ family.members[place].toList) with
    | some index => rfl
    | none => simp only [resolve?_constant, Option.map_some]

/-- A number is read as itself. -/
theorem known?_literal (literal : Literal) :
    SignalScript.Operand.known? locals literal.text = some (.constant literal.value) := by
  have hnumber : Decimal.readInt32? literal.text = some literal.value := by
    cases literal with
    | plain numeral => exact Decimal.readInt32?_digits numeral.ne_nil numeral.isDigit numeral.le
    | negative numeral => exact Decimal.readInt32?_minus numeral.ne_nil numeral.isDigit numeral.le
  rw [SignalScript.Operand.known?, hnumber]

/-! ### Operands -/

namespace Operand

/-- Without its mark, an operand is a word that is not reserved, perhaps behind a minus sign. -/
theorem exists_word (operand : Operand reserved locals) :
    ∃ word, IsWord word ∧ (∀ w ∈ reserved, isReservable w = true → word ≠ w) ∧
      (operand.core = word ∨ operand.core = '-' :: word ∧ operand.isPlain = false) := by
  -- A reserved word has a character that is no digit.
  have hdigits {highest : Nat} (numeral : Numeral highest) :
      ∀ w ∈ reserved, isReservable w = true → numeral.digits ≠ w := by
    rintro w - hw rfl
    simp only [isReservable, Bool.and_eq_true, List.any_eq_true, Bool.not_eq_true'] at hw
    obtain ⟨c, hc, hdigit⟩ := hw.2
    rw [numeral.isDigit c hc] at hdigit
    cases hdigit
  cases operand with
  | literal mark number =>
    cases number with
    | plain numeral => exact ⟨_, isWord_digits numeral, hdigits numeral, Or.inl rfl⟩
    | negative numeral => exact ⟨_, isWord_digits numeral, hdigits numeral, Or.inr ⟨rfl, rfl⟩⟩
  | name mark spelled =>
    exact ⟨_, isWord_of_isIdentifier spelled.isIdentifier_text, fun w => spelled.text_ne,
      Or.inl rfl⟩

theorem isTight_core (operand : Operand reserved locals) : IsTight operand.core := by
  obtain ⟨word, hword, -, h | ⟨h, -⟩⟩ := operand.exists_word
  · exact h ▸ hword.isTight
  · have hminus : IsTight ['-'] := IsTight.single rfl
    rw [h]
    simpa using hminus.append hword.isTight []

/-- An operand without its mark is known as what it means. -/
theorem known?_core (operand : Operand reserved locals) :
    SignalScript.Operand.known? locals operand.core = some operand.meaning := by
  cases operand with
  | literal mark number => exact known?_literal number
  | name mark spelled => exact known?_name spelled

/-- The mark goes, with the spaces behind it. -/
theorem trim_dropLeading_mark (operand : Operand reserved locals) :
    trim (dropLeading '#' operand.text) = operand.core := by
  have htight := operand.isTight_core
  rw [text]
  cases operand.mark with
  | none =>
    obtain ⟨word, hword, -, h⟩ := operand.exists_word
    obtain ⟨c, rest, hcons, hc⟩ := hword.exists_cons
    -- Neither a word nor a minus sign is taken for a mark.
    have hkept : dropLeading '#' operand.core = operand.core := by
      rcases h with h | ⟨h, -⟩
      · rw [h, hcons, dropLeading, if_neg (ne_of_isNameChar hc rfl)]
      · rw [h]
        rfl
    rw [markText, List.nil_append, hkept, htight.trim_eq]
  | some gap =>
    change trim (spaces gap ++ operand.core) = operand.core
    simpa using trim_spaces htight gap 0

/-- An operand is read as what it means, and nothing is noted. -/
theorem read_text (operand : Operand reserved locals) :
    SignalScript.Operand.read locals operand.text = pure operand.meaning := by
  rw [SignalScript.Operand.read, trim_dropLeading_mark]
  simp only [known?_core]

/-- The characters of operands. -/
def isChar (c : Char) : Bool := isNameChar c || c = '#' || c = ' ' || c = '-'

/-- Operands hold few characters. -/
theorem isChar_of_mem_text {operand : Operand reserved locals} {c : Char}
    (h : c ∈ operand.text) : isChar c = true := by
  simp only [isChar, Bool.or_eq_true, decide_eq_true_eq]
  rcases List.mem_append.mp h with h | h
  · cases hmark : operand.mark with
    | none =>
      rw [hmark] at h
      cases h
    | some gap =>
      rw [hmark] at h
      rcases List.mem_cons.mp h with rfl | h
      · simp
      · simp [List.eq_of_mem_replicate h]
  · obtain ⟨word, hword, -, hcore | ⟨hcore, -⟩⟩ := operand.exists_word
    · rw [hcore] at h
      simp [hword.isNameChar h]
    · rw [hcore] at h
      rcases List.mem_cons.mp h with rfl | h
      · simp
      · simp [hword.isNameChar h]

theorem ne_space {c : Char} (hc : isChar c = false) : c ≠ ' ' := by
  rintro rfl
  cases hc

/-- So they hold no other, such as a bracket, a comma or an operator. -/
theorem not_mem_text {operand : Operand reserved locals} {c : Char} (hc : isChar c = false) :
    c ∉ operand.text := fun h => by
  rw [isChar_of_mem_text h] at hc
  cases hc

theorem isTight_text (operand : Operand reserved locals) : IsTight operand.text := by
  have htight := operand.isTight_core
  rw [text]
  cases operand.mark with
  | none => exact htight
  | some gap =>
    have hmark : IsTight ['#'] := IsTight.single rfl
    simpa [markText] using hmark.append htight (spaces gap)

end Operand

/-! ### Calls -/

theorem Argument.not_mem_text {argument : Argument reserved locals} {c : Char}
    (hc : Operand.isChar c = false) : c ∉ argument.text := by
  have hspace := not_mem_spaces (Operand.ne_space hc)
  simp [Argument.text, hspace, Operand.not_mem_text hc]

/-- An argument without the blanks around it is its operand. -/
theorem trim_argument (argument : Argument reserved locals) :
    trim argument.text = argument.operand.text :=
  trim_spaces argument.operand.isTight_text _ _

theorem isIdentifier_function (function : Function) :
    isIdentifier function.name.toList = true := by
  rcases function with _ | _ | w | w | w | _ | _ | _ | _ | _ <;> (try cases w) <;> rfl

/-- A reserved word names no function. -/
theorem function_ne (function : Function) {word : Text} (h : isReservable word = true) :
    function.name.toList ≠ word := by
  rintro rfl
  simp [isReservable, Function.named?_name] at h

/-- All arguments are read as what they mean, and nothing is noted. -/
theorem mapM_read (arguments : List (Argument reserved locals)) :
    (arguments.map fun argument => argument.operand.text).mapM (SignalScript.Operand.read locals) =
      pure (arguments.map fun argument => argument.operand.meaning) := by
  induction arguments with
  | nil => rfl
  | cons argument more ih =>
    rw [List.map_cons, List.mapM_cons, Operand.read_text, ih]
    rfl

namespace Call

variable (call : Call reserved locals)

/-- The characters between the brackets of a call. -/
theorem not_mem_inner {c : Char} (hc : Operand.isChar c = false) (hcomma : c ≠ ',') :
    c ∉ call.inner := by
  have hspaces := not_mem_spaces (Operand.ne_space hc) call.indent
  have hjoined (arguments : List (Argument reserved locals)) :
      c ∉ joinedBy [','] (arguments.map Argument.text) := by
    induction arguments with
    | nil => simp [joinedBy]
    | cons argument more ih =>
      cases more with
      | nil => exact Argument.not_mem_text hc
      | cons next later =>
        simp only [List.map_cons, joinedBy, List.mem_append, List.mem_singleton, not_or] at ih ⊢
        exact ⟨⟨Argument.not_mem_text hc, hcomma⟩, ih⟩
  simp [inner, hspaces, hjoined]

/-- The arguments are found between the commas. -/
theorem argumentTexts_inner : SignalScript.Call.argumentTexts (call.inner ++ [')']) =
    call.arguments.map fun argument => argument.operand.text := by
  -- Between the brackets there is no further one to take out.
  have hfilter : (call.inner ++ [')']).filter (fun c => c ≠ ')') = call.inner := by
    rw [List.filter_append, List.filter_eq_self.mpr]
    · simp
    · intro c hc
      simpa using ne_of_mem_of_not_mem hc (call.not_mem_inner rfl (by decide))
  rw [SignalScript.Call.argumentTexts, hfilter]
  cases harguments : call.arguments with
  | nil =>
    -- Without arguments there are only spaces between the brackets.
    have hblank : trim call.inner = [] := by
      rw [inner, harguments]
      have hnothing : ∀ c ∈ ([] : Text), isBlank c = true := fun _ h => absurd h List.not_mem_nil
      have htrim : trim (spaces call.indent ++ ([] ++ [])) = trim [] :=
        trim_pad (fun _ => isBlank_of_mem_spaces) hnothing
      exact htrim
    simp [hblank]
  | cons argument more =>
    have hcomma : ∀ text ∈ call.arguments.map Argument.text, ',' ∉ text := by
      intro text htext
      obtain ⟨argument, -, rfl⟩ := List.mem_map.mp htext
      exact Argument.not_mem_text rfl
    -- No comma stands in an argument, so the pieces are the arguments.
    have hpieces : (pieces ',' (trim call.inner)).map trim =
        call.arguments.map fun argument => argument.operand.text := by
      rw [map_trim_pieces_trim rfl, inner,
        map_trim_pieces_append_left (fun _ => isBlank_of_mem_spaces) rfl,
        pieces_joinedBy (by simp [harguments]) hcomma, List.map_map]
      exact List.map_congr_left fun argument _ => trim_argument argument
    rw [harguments] at hpieces
    -- The first argument keeps the text from being blank.
    have hne : ¬ (trim call.inner).isEmpty = true := by
      intro hempty
      rw [List.isEmpty_iff.mp hempty] at hpieces
      exact argument.operand.isTight_text.ne_nil (List.cons.inj hpieces).1.symm
    simp only [if_neg hne]
    exact hpieces

/-- A call is read as what it means, and nothing is noted. -/
theorem read_text : SignalScript.Call.read locals call.text = pure (some call.meaning) := by
  have hname := isWord_of_isIdentifier (isIdentifier_function call.function)
  have hfront : '(' ∉ call.function.name.toList ++ spaces call.gap := by
    intro h
    rcases List.mem_append.mp h with h | h
    · exact hname.not_mem rfl h
    · exact not_mem_spaces (by decide) _ h
  have hcut : cut? '(' call.text =
      some (call.function.name.toList ++ spaces call.gap, call.inner ++ [')']) := by
    rw [text, ← List.append_assoc]
    exact cut?_append_cons hfront _
  have hinner : '(' ∉ call.inner ++ [')'] := by
    simpa using call.not_mem_inner (c := '(') rfl (by decide)
  have htrim : trim (call.function.name.toList ++ spaces call.gap) = call.function.name.toList :=
    trim_spaces hname.isTight 0 call.gap
  rw [SignalScript.Call.read, hcut]
  simp only [if_neg hinner, htrim, Function.named?_name, argumentTexts_inner, mapM_read]
  have harity : ¬ (call.arguments.map fun argument => argument.operand.meaning).length ≠
      call.function.arity := by simp [call.arity]
  simp only [pure_bind, if_neg harity]
  rfl

end Call

/-- An operand or call is read as what it means, and nothing is noted. -/
theorem Atom.read_text (atom : Atom reserved locals) :
    SignalScript.Atom.read locals atom.text = pure (some atom.meaning) := by
  rw [SignalScript.Atom.read]
  cases atom with
  | operand o =>
    have hbracket : '(' ∉ (Atom.operand o).text := Operand.not_mem_text rfl
    rw [if_neg hbracket]
    simp only [Atom.text, Operand.read_text, pure_bind]
    rfl
  | call c =>
    have hbracket : '(' ∈ (Atom.call c).text := by simp [Atom.text, Call.text]
    rw [if_pos hbracket]
    simp only [Atom.text, Call.read_text, pure_bind]
    rfl

/-! ### Negations -/

namespace Negation

variable {text : Text}

/-- A negation is taken off in front of a text that begins with none. -/
theorem read_text (negation : Negation) {c : Char} {rest : Text} (hc : isBlank c = false)
    (hplain : Text.negation (c :: rest) = (false, c :: rest)) :
    Text.negation (negation.text ++ c :: rest) = (negation.isPresent, c :: rest) := by
  cases negation with
  | absent => exact hplain
  | mark gap => exact congrArg (Prod.mk true) (trimStart_spaces hc gap rest)
  | word gap => exact congrArg (Prod.mk true) (trimStart_spaces hc gap rest)

/-- A text behind a negation begins and ends with no blank, if it does so by itself. -/
theorem isTight (negation : Negation) (h : IsTight text) : IsTight (negation.text ++ text) := by
  cases negation with
  | absent => exact h
  | mark gap =>
    have hmark : IsTight ['!'] := IsTight.single rfl
    simpa [Negation.text] using hmark.append h (spaces gap)
  | word gap =>
    have hword : IsTight "NOT".toList := by decide
    simpa [Negation.text] using hword.append h (' ' :: spaces gap)

end Negation

/-! ### Brackets -/

theorem isBalanced_spaces (gap : Nat) : IsBalanced (spaces gap) :=
  .of_not_mem (not_mem_spaces (by decide) gap) (not_mem_spaces (by decide) gap)

theorem Negation.isBalanced (negation : Negation) : IsBalanced negation.text := by
  cases negation with
  | absent => exact .of_not_mem List.not_mem_nil List.not_mem_nil
  | mark gap =>
    have hmark : IsBalanced ['!'] := .of_not_mem (by decide) (by decide)
    exact hmark.append (isBalanced_spaces gap)
  | word gap =>
    have hword : IsBalanced "NOT ".toList := .of_not_mem (by decide) (by decide)
    exact hword.append (isBalanced_spaces gap)

theorem Call.isBalanced_inner (call : Call reserved locals) : IsBalanced call.inner :=
  .of_not_mem (call.not_mem_inner rfl (by decide)) (call.not_mem_inner rfl (by decide))

/-- The brackets of an atom are balanced. -/
theorem Atom.isBalanced (atom : Atom reserved locals) : IsBalanced atom.text := by
  cases atom with
  | operand o => exact .of_not_mem (Operand.not_mem_text rfl) (Operand.not_mem_text rfl)
  | call c =>
    have hname := isWord_of_isIdentifier (isIdentifier_function c.function)
    exact (IsBalanced.of_not_mem (hname.not_mem rfl) (hname.not_mem rfl)).append
      ((isBalanced_spaces c.gap).append c.isBalanced_inner.enclose)

/-- An atom begins and ends with no blank. -/
theorem Atom.isTight (atom : Atom reserved locals) : IsTight atom.text := by
  cases atom with
  | operand o => exact o.isTight_text
  | call c =>
    have hname := (isWord_of_isIdentifier (isIdentifier_function c.function)).isTight
    have hclose : IsTight [')'] := IsTight.single rfl
    simpa [Atom.text, Call.text] using hname.append hclose (spaces c.gap ++ '(' :: c.inner)

end Written

end SignalScript
