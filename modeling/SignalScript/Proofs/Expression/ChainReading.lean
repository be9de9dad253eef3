import SignalScript.Proofs.Expression.LevelRun
import SignalScript.Proofs.Expression.WrittenChain

/-!
# Reading written chains

The reader of chains finds in the text of a chain exactly the terms it stands for, with a level of
its own for every group, and notes nothing.

## Main definitions

* `IsOrdinary` — a character that is neither an operator nor a bracket
* `IsRun` — a text that the search for an operator runs over
* `Written.StartsTerm` — a text that begins with neither operator nor negation

## Main results

* `depth_ne_zero_of_mem_splitToken`, `depth_eq_zero_of_splitToken` — the brackets of a token
* `Written.read_chain` — the flat terms of a chain are read from its text
-/

namespace SignalScript

open Text

/-! ### Operators -/

theorem Operator.symbol_of_ofChar? {c : Char} {op : Operator} (h : ofChar? c = some op) :
    c = op.symbol := by
  rw [ofChar?.eq_def] at h
  split at h <;> cases h <;> rfl

theorem Operator.isBlank_symbol (op : Operator) : isBlank op.symbol = false := by
  cases op <;> rfl

theorem Operator.isSymbol_symbol (op : Operator) : isSymbol op.symbol = true := by
  cases op <;> rfl

theorem depthAfter_symbol (depth : Int) (op : Operator) : depthAfter depth op.symbol = depth := by
  cases op <;> rfl

section Led

variable {text : Text}

/-- What begins with no bare character is nothing, or begins with an operator. -/
theorem eq_nil_or_cons_of_startsBare (h : startsBare text = false) :
    text = [] ∨ ∃ op rest, text = Operator.symbol op :: rest := by
  cases text with
  | nil => exact .inl rfl
  | cons c rest =>
    have hsymbol : Operator.isSymbol c = true := by simpa [startsBare] using h
    obtain ⟨op, hop⟩ := Option.isSome_iff_exists.mp hsymbol
    obtain rfl := Operator.symbol_of_ofChar? hop
    exact .inr ⟨op, rest, rfl⟩

/-- A text at which a term ends begins no token. -/
theorem splitToken_of_startsBare (h : startsBare text = false) :
    splitToken 0 text = ([], text) := by
  rcases eq_nil_or_cons_of_startsBare h with rfl | ⟨op, rest, rfl⟩
  · rfl
  · rw [splitToken, if_pos ⟨depthAfter_symbol 0 op, op.isSymbol_symbol⟩]

theorem trimStart_of_startsBare (h : startsBare text = false) : trimStart text = text := by
  rcases eq_nil_or_cons_of_startsBare h with rfl | ⟨op, rest, rfl⟩
  · rfl
  · exact List.dropWhile_cons_of_neg (by simp [op.isBlank_symbol])

/-- A word in front of such a text ends there. -/
theorem endsWord_of_startsBare (h : startsBare text = false) : EndsWord text := by
  rcases eq_nil_or_cons_of_startsBare h with rfl | ⟨op, rest, rfl⟩
  · exact endsWord_nil
  · exact endsWord_cons (by cases op <;> rfl)

end Led

/-! ### Tokens -/

section Depth

variable {text before after : Text} {depth : Int}

/-- What one character does to the depth is what its brackets count for. -/
theorem depthAfter_add_count (depth : Int) (c : Char) (text : Text) :
    depth + (c :: text).count '(' - (c :: text).count ')' =
      depthAfter depth c + text.count '(' - text.count ')' := by
  simp only [depthAfter, List.count_cons, beq_iff_eq]
  by_cases hopen : c = '('
  · rw [if_pos hopen, if_pos hopen, if_neg (by rw [hopen]; decide)]
    omega
  · by_cases hclose : c = ')'
    · rw [if_neg hopen, if_neg hopen, if_pos hclose, if_pos hclose]
      omega
    · rw [if_neg hopen, if_neg hopen, if_neg hclose, if_neg hclose]
      omega

/-- An operator in a token stands inside brackets. -/
theorem depth_ne_zero_of_mem_splitToken {op : Operator}
    (h : (splitToken depth text).1 = before ++ op.symbol :: after) :
    depth + before.count '(' - before.count ')' ≠ 0 := by
  -- The induction is on the text, with the depth that is reached in it.
  induction text generalizing depth before with
  | nil => simp [splitToken] at h
  | cons c rest ih =>
    rw [splitToken] at h
    split at h
    · simp at h
    · rename_i hgo
      cases before with
      | nil =>
        obtain ⟨rfl, -⟩ := List.cons.inj h
        simpa [depthAfter_symbol, op.isSymbol_symbol] using hgo
      | cons d before =>
        obtain ⟨rfl, hrest⟩ := List.cons.inj h
        rw [depthAfter_add_count]
        exact ih hrest

/-- A token in front of more text closes its brackets. -/
theorem depth_eq_zero_of_splitToken (h : (splitToken depth text).2 ≠ []) :
    depth + (splitToken depth text).1.count '(' - (splitToken depth text).1.count ')' = 0 := by
  induction text generalizing depth with
  | nil => exact absurd rfl h
  | cons c rest ih =>
    rw [splitToken] at h ⊢
    split at h
    · rename_i hstop
      obtain ⟨op, hop⟩ := Option.isSome_iff_exists.mp hstop.2
      obtain rfl := Operator.symbol_of_ofChar? hop
      rw [if_pos hstop]
      simpa [depthAfter_symbol] using hstop.1
    · rename_i hgo
      rw [if_neg hgo]
      simp only [depthAfter_add_count]
      exact ih h

end Depth

/-- The character is neither an operator nor a bracket. -/
def IsOrdinary (c : Char) : Prop := Operator.isSymbol c = false ∧ c ≠ '(' ∧ c ≠ ')'

/-- The search for an operator runs over the text, whatever stands behind it. -/
def IsRun (text : Text) : Prop :=
  ∀ back, splitToken 0 (text ++ back) =
    (text ++ (splitToken 0 back).1, (splitToken 0 back).2)

namespace IsRun

variable {text front back inner : Text}

theorem nil : IsRun [] := fun _ => rfl

/-- Runs stand side by side. -/
theorem append (hfront : IsRun front) (hback : IsRun back) : IsRun (front ++ back) := by
  intro more
  rw [List.append_assoc, hfront, hback, List.append_assoc]

/-- A character that is neither an operator nor a bracket. -/
theorem char {c : Char} (hsymbol : Operator.isSymbol c = false) (hopen : c ≠ '(')
    (hclose : c ≠ ')') : IsRun [c] := by
  intro back
  simp [splitToken, depthAfter, hsymbol, hopen, hclose]

theorem of_chars (h : ∀ c ∈ text, IsOrdinary c) : IsRun text := by
  induction text with
  | nil => exact nil
  | cons c rest ih =>
    obtain ⟨hsymbol, hopen, hclose⟩ := h c List.mem_cons_self
    exact (char hsymbol hopen hclose).append (ih fun d hd => h d (List.mem_cons_of_mem _ hd))

/-- Inside brackets no operator counts. -/
theorem splitToken_inside (hopen : '(' ∉ inner) (hclose : ')' ∉ inner) (back : Text) :
    splitToken 1 (inner ++ back) = (inner ++ (splitToken 1 back).1, (splitToken 1 back).2) := by
  induction inner with
  | nil => rfl
  | cons c rest ih =>
    obtain ⟨ho, hopen⟩ := List.ne_and_not_mem_of_not_mem_cons hopen
    obtain ⟨hc, hclose⟩ := List.ne_and_not_mem_of_not_mem_cons hclose
    have hdepth : depthAfter 1 c = 1 := by simp [depthAfter, Ne.symm ho, Ne.symm hc]
    rw [List.cons_append, splitToken, hdepth, if_neg (by simp), ih hopen hclose]
    rfl

/-- Brackets around a text without brackets make a run: no operator between them ends it. -/
theorem brackets (hopen : '(' ∉ inner) (hclose : ')' ∉ inner) :
    IsRun ('(' :: (inner ++ [')'])) := by
  intro back
  have hinside := splitToken_inside hopen hclose (')' :: back)
  have hend : splitToken 1 (')' :: back) =
      (')' :: (splitToken 0 back).1, (splitToken 0 back).2) := by
    rw [splitToken, if_neg (by simp [Operator.isSymbol, Operator.ofChar?])]
    rfl
  have hstart : splitToken 0 ('(' :: (inner ++ ')' :: back)) =
      ('(' :: (splitToken 1 (inner ++ ')' :: back)).1,
        (splitToken 1 (inner ++ ')' :: back)).2) := by
    rw [splitToken, if_neg (by simp [depthAfter])]
    rfl
  simp [hstart, hinside, hend]

end IsRun

namespace Written

variable {locals : List Text}

/-! ### Heads of terms -/

/-- The text begins with neither a blank nor an operator nor a negation. -/
structure StartsTerm (text : Text) : Prop where
  head : ∃ c rest, text = c :: rest ∧ isBlank c = false ∧ Operator.ofChar? c = none
  plain : negation text = (false, text)

/-- A negated text begins with no blank and no operator. -/
theorem exists_head_negation {text : Text} (h : StartsTerm text) (negation : Negation) :
    ∃ c rest, negation.text ++ text = c :: rest ∧ isBlank c = false ∧
      Operator.ofChar? c = none := by
  cases negation with
  | absent => exact h.head
  | mark gap => exact ⟨'!', spaces gap ++ text, rfl, rfl, rfl⟩
  | word gap => exact ⟨'N', "OT ".toList ++ spaces gap ++ text, rfl, rfl, rfl⟩

/-- Operator and negation are taken off in front of a term. -/
theorem termHead_text {text : Text} (h : StartsTerm text) (lead : Option (Operator × Nat))
    (negation : Negation) :
    termHead (leadText lead ++ (negation.text ++ text)) =
      ⟨lead.map Prod.fst, negation.isPresent, text⟩ := by
  have hlead : leadingOperator (leadText lead ++ (negation.text ++ text)) =
      (lead.map Prod.fst, negation.text ++ text) := by
    obtain ⟨c, rest, hcons, hblank, hsymbol⟩ := exists_head_negation h negation
    rw [hcons]
    cases lead with
    | none => simp [leadText, leadingOperator, hsymbol]
    | some pair =>
      obtain ⟨operator, gap⟩ := pair
      simp [leadText, leadingOperator, trimStart_spaces hblank]
  obtain ⟨c, rest, rfl, hblank, -⟩ := h.head
  simp only [termHead, hlead, negation.read_text hblank h.plain]

/-! ### Atoms in chains -/

theorem ofChar?_of_isNameChar {c : Char} (h : isNameChar c = true) : Operator.ofChar? c = none := by
  rw [Operator.ofChar?.eq_def]
  split <;> first | rfl | exact absurd h (by decide)

/-- An operand outside brackets begins a term. -/
theorem startsTerm_word {word text : Text} (hword : IsWord word) (hnot : word ≠ "NOT".toList)
    (htext : EndsWord text) : StartsTerm (word ++ text) where
  head := by
    obtain ⟨c, rest, rfl, hc⟩ := hword.exists_cons
    exact ⟨c, rest ++ text, rfl, isBlank_of_isNameChar hc, ofChar?_of_isNameChar hc⟩
  plain := negation_word hword hnot htext

/-- A plain operand is a word other than `NOT` and `RETURN`, perhaps marked. -/
theorem exists_word_of_isPlain (operand : Operand chainWords locals) (h : operand.isPlain = true) :
    ∃ word, operand.core = word ∧ IsWord word ∧ word ≠ "NOT".toList ∧ word ≠ "RETURN".toList := by
  obtain ⟨word, hword, hfree, hcore | ⟨-, hminus⟩⟩ := operand.exists_word
  · exact ⟨word, hcore, hword, hfree _ (by decide) (by decide), hfree _ (by decide) (by decide)⟩
  · rw [h] at hminus
    cases hminus

/-- An atom begins a term: its first character is neither an operator nor a negation. -/
theorem startsTerm_atom (atom : Atom chainWords locals) (h : atom.isPlain = true) {text : Text}
    (htext : EndsWord text) : StartsTerm (atom.text ++ text) := by
  cases atom with
  | operand o =>
    obtain ⟨word, hcore, hword, hnot, -⟩ := exists_word_of_isPlain o h
    rw [Atom.text, Operand.text, hcore]
    cases o.mark with
    | none => exact startsTerm_word hword hnot htext
    | some gap => exact ⟨⟨'#', _, rfl, rfl, rfl⟩, rfl⟩
  | call c =>
    have hword := isWord_of_isIdentifier (isIdentifier_function c.function)
    have hnot : c.function.name.toList ≠ "NOT".toList := function_ne c.function (by decide)
    rw [Atom.text, Call.text, List.append_assoc]
    refine startsTerm_word hword hnot ?_
    rw [List.append_assoc]
    exact EndsWord.spaces (endsWord_cons rfl) _

theorem isOrdinary_of_isNameChar {c : Char} (h : isNameChar c = true) : IsOrdinary c := by
  refine ⟨?_, ne_of_isNameChar h rfl, ne_of_isNameChar h rfl⟩
  rw [Operator.isSymbol, ofChar?_of_isNameChar h]
  rfl

theorem isOrdinary_of_isBlank {c : Char} (h : isBlank c = true) : IsOrdinary c := by
  have hne (d : Char) (hd : isBlank d = false) : c ≠ d := fun heq => by
    rw [heq, hd] at h
    cases h
  refine ⟨?_, hne '(' rfl, hne ')' rfl⟩
  rw [Operator.isSymbol, Option.isSome_eq_false_iff, Option.isNone_iff_eq_none]
  by_contra hsome
  obtain ⟨op, hop⟩ := Option.ne_none_iff_exists'.mp hsome
  exact hne op.symbol op.isBlank_symbol (Operator.symbol_of_ofChar? hop)

theorem isRun_spaces (gap : Nat) : IsRun (spaces gap) :=
  IsRun.of_chars fun _ hc => isOrdinary_of_isBlank (isBlank_of_mem_spaces hc)

theorem isRun_word {word : Text} (h : IsWord word) : IsRun word :=
  IsRun.of_chars fun _ hc => isOrdinary_of_isNameChar (h.isNameChar hc)

/-- An atom is one run, so it is one token. -/
theorem isRun_atom (atom : Atom chainWords locals) (h : atom.isPlain = true) :
    IsRun atom.text := by
  cases atom with
  | operand o =>
    obtain ⟨word, hcore, hword, -⟩ := exists_word_of_isPlain o h
    rw [Atom.text, Operand.text, hcore]
    cases o.mark with
    | none => exact isRun_word hword
    | some gap =>
      -- A mark and the spaces behind it are run over like the word itself.
      have hmark : IsRun ['#'] := IsRun.char rfl (by decide) (by decide)
      exact (hmark.append (isRun_spaces gap)).append (isRun_word hword)
  | call c =>
    have hname := isRun_word (isWord_of_isIdentifier (isIdentifier_function c.function))
    exact hname.append ((isRun_spaces c.gap).append
      (IsRun.brackets (c.not_mem_inner rfl (by decide)) (c.not_mem_inner rfl (by decide))))

/-- No atom is written as `RETURN`. -/
theorem atom_ne_return (atom : Atom chainWords locals) (h : atom.isPlain = true) :
    atom.text ≠ "RETURN".toList := by
  cases atom with
  | operand o =>
    obtain ⟨word, hcore, -, -, hreturn⟩ := exists_word_of_isPlain o h
    rw [Atom.text, Operand.text, hcore]
    cases o.mark with
    | none => exact hreturn
    | some gap => exact fun h => absurd (List.cons.inj h).1 (by decide)
  | call c =>
    intro h
    have hbracket : '(' ∈ "RETURN".toList := by rw [← h]; simp [Atom.text, Call.text]
    exact absurd hbracket (by decide)

/-- An atom begins with a character other than a bracket. -/
theorem exists_cons_atom (atom : Atom chainWords locals) (h : atom.isPlain = true) :
    ∃ c rest, atom.text = c :: rest ∧ c ≠ '(' := by
  cases atom with
  | operand o =>
    obtain ⟨word, hcore, hword, -⟩ := exists_word_of_isPlain o h
    obtain ⟨c, rest, rfl, hc⟩ := hword.exists_cons
    rw [Atom.text, Operand.text, hcore]
    cases o.mark with
    | none => exact ⟨c, rest, rfl, ne_of_isNameChar hc rfl⟩
    | some gap => exact ⟨'#', _, rfl, by decide⟩
  | call call =>
    obtain ⟨c, rest, hname, hc⟩ :=
      (isWord_of_isIdentifier (isIdentifier_function call.function)).exists_cons
    rw [Atom.text, Call.text, hname]
    exact ⟨c, _, rfl, ne_of_isNameChar hc rfl⟩

/-! ### Brackets -/

theorem isBalanced_lead (lead : Option (Operator × Nat)) : IsBalanced (leadText lead) := by
  cases lead with
  | none => exact .of_not_mem List.not_mem_nil List.not_mem_nil
  | some pair =>
    obtain ⟨operator, gap⟩ := pair
    have hsymbol : IsBalanced [operator.symbol] := by
      cases operator <;> exact .of_not_mem (by decide) (by decide)
    exact hsymbol.append (isBalanced_spaces gap)

mutual

theorem Factor.isBalanced : (factor : Factor locals) → IsBalanced factor.text
  | .atom a _ => a.isBalanced
  | .group indent chain gap =>
    ((isBalanced_spaces indent).append (chain.isBalanced.append (isBalanced_spaces gap))).enclose

/-- The brackets of a chain are balanced. -/
theorem Chain.isBalanced : (chain : Chain locals) → IsBalanced chain.text
  | .mk lead negation factor rest =>
    (isBalanced_lead lead).append
      ((negation.isBalanced).append (factor.isBalanced.append rest.isBalanced))

theorem Rest.isBalanced : (rest : Rest locals) → IsBalanced rest.text
  | .done => .of_not_mem List.not_mem_nil List.not_mem_nil
  | .more gap operator gap' negation factor rest =>
    (isBalanced_spaces gap).append ((isBalanced_lead (some (operator, gap'))).append
      ((negation.isBalanced).append (factor.isBalanced.append rest.isBalanced)))

end

/-! ### Whole chains -/

/-- Operator and negation in front of a text leave no blanks at its ends. -/
theorem isTight_link {text : Text} (h : IsTight text) (lead : Option (Operator × Nat))
    (negation : Negation) : IsTight (leadText lead ++ (negation.text ++ text)) := by
  have hnegation := negation.isTight h
  cases lead with
  | none => exact hnegation
  | some pair =>
    obtain ⟨operator, gap⟩ := pair
    have hsymbol : IsTight [operator.symbol] := IsTight.single operator.isBlank_symbol
    simpa [leadText] using hsymbol.append hnegation (spaces gap)

/-- A factor begins and ends with no blank. -/
theorem isTight_factor (factor : Factor locals) : IsTight factor.text := by
  cases factor with
  | atom a _ => exact a.isTight
  | group indent chain gap => exact IsTight.brackets _

theorem Rest.isTight_behind {front : Text} (hfront : IsTight front) :
    (rest : Rest locals) → IsTight (front ++ rest.text)
  | .done => by simpa [Rest.text] using hfront
  | .more gap operator gap' negation factor rest => by
    have hlink := isTight_link (rest.isTight_behind (isTight_factor factor))
      (some (operator, gap')) negation
    simpa [Rest.text] using hfront.append hlink (spaces gap)

/-- So does a chain. -/
theorem isTight_chain : (chain : Chain locals) → IsTight chain.text
  | .mk lead negation factor rest =>
    isTight_link (rest.isTight_behind (isTight_factor factor)) lead negation

/-- The text of the further terms from the first operator on. -/
def Rest.core : Rest locals → Text
  | .done => []
  | .more _ operator gap' negation factor rest =>
    leadText (some (operator, gap')) ++ (negation.text ++ (factor.text ++ rest.text))

/-- The spaces in front of that. -/
def Rest.gap : Rest locals → Nat
  | .done => 0
  | .more gap _ _ _ _ _ => gap

/-- Further terms are a gap and then the first operator. -/
theorem Rest.text_eq (rest : Rest locals) : rest.text = spaces rest.gap ++ rest.core := by
  cases rest <;> rfl

/-- A term ends in front of the operator of the next. -/
theorem startsBare_core (rest : Rest locals) : startsBare rest.core = false := by
  cases rest with
  | done => rfl
  | more gap operator gap' negation factor rest => cases operator <;> rfl

theorem Rest.endsWord (rest : Rest locals) : EndsWord rest.text := by
  rw [rest.text_eq]
  exact EndsWord.spaces (endsWord_of_startsBare (startsBare_core rest)) _

theorem trimStart_rest (rest : Rest locals) : trimStart rest.text = rest.core := by
  rw [rest.text_eq, trimStart_append_of_blank fun _ => isBlank_of_mem_spaces,
    trimStart_of_startsBare (startsBare_core rest)]

section Reading

variable (source : Text)

mutual

/-- A term is read with its operator and negation, and then what stands behind it. -/
theorem reads_factor : (factor : Factor locals) → ∀ (level last : Nat)
    (lead : Option (Operator × Nat)) (negation : Negation) (rest : Rest locals),
    Reads locals source level (last + factor.groups) rest.core
      ⟨rest.terms level (last + factor.groups), last + factor.groups + rest.groups, .complete⟩ [] →
    Reads locals source level last
      (leadText lead ++ (negation.text ++ (factor.text ++ rest.text)))
      ⟨(Chain.mk lead negation factor rest).terms level last,
        last + (factor.groups + rest.groups), .complete⟩ []
  | .atom atom plain, level, last, lead, negation, rest, hrest => by
    have hstart := startsTerm_atom atom plain rest.endsWord
    obtain ⟨c, tail, hcons, hc⟩ := exists_cons_atom atom plain
    -- The text of an atom begins with no bracket, so it is no group.
    have hopen : (atom.text ++ rest.text).head? ≠ some '(' := by
      rw [hcons]
      exact fun h => hc (Option.some.inj h)
    -- The token runs up to the operator of the next term, with the spaces in front of it.
    have hsplit : splitToken 0 (atom.text ++ rest.text) =
        (atom.text ++ spaces rest.gap, rest.core) := by
      rw [rest.text_eq, isRun_atom atom plain, isRun_spaces,
        splitToken_of_startsBare (startsBare_core rest), List.append_nil]
    have htrim : trim (atom.text ++ spaces rest.gap) = atom.text :=
      trim_spaces (atom.isTight) 0 rest.gap
    have hread : SignalScript.Atom.read locals (trim (atom.text ++ spaces rest.gap)) =
        ⟨some atom.meaning, []⟩ := by
      rw [htrim]
      exact atom.read_text
    rw [Factor.groups, Nat.add_zero] at hrest
    rw [Factor.groups, Nat.zero_add]
    exact .atom (termHead_text hstart lead negation) hopen hsplit
      (by rw [htrim]; exact (atom.isTight).ne_nil)
      (by rw [htrim]; exact atom_ne_return atom plain) hread hrest
  | .group indent chain gap, level, last, lead, negation, rest, hrest => by
    have hinner : IsBalanced (spaces indent ++ (chain.text ++ spaces gap)) :=
      (isBalanced_spaces indent).append (chain.isBalanced.append (isBalanced_spaces gap))
    have htext : (Factor.group indent chain gap).text ++ rest.text =
        '(' :: (spaces indent ++ (chain.text ++ spaces gap) ++ ')' :: rest.text) := by
      simp [Factor.text]
    have hstart : StartsTerm ('(' :: (spaces indent ++ (chain.text ++ spaces gap) ++
        ')' :: rest.text)) := ⟨⟨'(', _, rfl, rfl, rfl⟩, rfl⟩
    -- The group is read on the next free level, up to the bracket that closes it.
    have hgroup := reads_chain chain (last + 1) (last + 1)
    rw [← trim_spaces (isTight_chain chain) indent gap] at hgroup
    have hlast : last + 1 + chain.groups = last + (Factor.group indent chain gap).groups := by
      rw [Factor.groups]
      omega
    rw [hlast] at hgroup
    rw [← trimStart_rest] at hrest
    rw [htext, ← Nat.add_assoc]
    refine .group (termHead_text hstart lead negation) (enclosed?_of_isBalanced hinner _) hgroup ?_
      hrest
    rw [trimStart_rest, startsBare_core]

theorem reads_chain : (chain : Chain locals) → ∀ level last : Nat,
    Reads locals source level last chain.text
      ⟨chain.terms level last, last + chain.groups, .complete⟩ []
  | .mk lead negation factor rest, level, last =>
    reads_factor factor level last lead negation rest (reads_rest rest level _)

/-- Further terms are read as such: each operator begins the level anew. -/
theorem reads_rest : (rest : Rest locals) → ∀ level last : Nat,
    Reads locals source level last rest.core
      ⟨rest.terms level last, last + rest.groups, .complete⟩ []
  | .done, _, _ => .done
  | .more _ operator gap' negation factor rest, level, last =>
    reads_factor factor level last (some (operator, gap')) negation rest (reads_rest rest level _)

end

end Reading

/-- The flat terms of a chain are read from its text, whatever the spaces, and nothing is noted. -/
theorem read_chain (chain : Chain locals) (indent gap : Nat) :
    SignalScript.Chain.read locals (spaces indent ++ (chain.text ++ spaces gap)) =
      pure (some (chain.terms 0 0)) := by
  have hbalanced : IsBalanced (spaces indent ++ (chain.text ++ spaces gap)) :=
    (isBalanced_spaces indent).append (chain.isBalanced.append (isBalanced_spaces gap))
  rw [SignalScript.Chain.read, if_neg (by simp [hbalanced.closed_eq]),
    trim_spaces (isTight_chain chain), (reads_chain _ chain 0 0).readLevel_eq]
  rfl

end Written

end SignalScript
