import SignalScript.Proofs.Expression.LevelRun
import SignalScript.Proofs.Expression.ChainReading

/-!
# Where a `RETURN` stands

A `RETURN` ends a chain where it is a whole term: at the beginning of its level or behind an
operator of that level, perhaps negated, and in front of the next operator or the end of the level.
What follows it is left behind on its own level, and what follows a group that it stands in is left
behind on the level around the group. All this is said of the text alone; what the reader sees as
the first term of a text is then related to it.

## Main definitions

* `BeginsTerm`, `EndsTerm` — a term begins behind a text, or ends in front of it
* `ReturnsAt`, `LeavesBehind` — a `RETURN` stands there, and what is left behind on each level
* `IsFirstTerm` — the first term of a text, with what stands in front of it

## Main results

* `LeavesBehind.prepend` — terms in front of others do not change what these leave behind
* `LeavesBehind.first_or_later` — a `RETURN` stands in the first term, or in the terms behind it
-/

namespace SignalScript

open Text

/-! ### Places of terms -/

/-- Nothing, or a negation with the blanks behind it. -/
inductive IsNegation : Text → Prop
  | absent : IsNegation []
  | mark {gap : Text} (hgap : ∀ c ∈ gap, isBlank c = true) : IsNegation ('!' :: gap)
  | word {gap : Text} (hgap : ∀ c ∈ gap, isBlank c = true) : IsNegation ("NOT ".toList ++ gap)

/-- What stands in front of a term: an operator, if any, and a negation, if any. -/
inductive IsLead : Text → Prop
  | plain {negation : Text} (hnegation : IsNegation negation) : IsLead negation
  | led {gap negation : Text} (op : Operator) (hgap : ∀ c ∈ gap, isBlank c = true)
    (hnegation : IsNegation negation) : IsLead (op.symbol :: (gap ++ negation))

/-- A term begins behind the text: at the beginning of a level, or behind an operator outside the
brackets of the level. -/
inductive BeginsTerm : Text → Prop
  | first {negation : Text} (hnegation : IsNegation negation) : BeginsTerm negation
  | later {before gap negation : Text} (op : Operator)
    (hbefore : before.count '(' = before.count ')') (hgap : ∀ c ∈ gap, isBlank c = true)
    (hnegation : IsNegation negation) : BeginsTerm (before ++ op.symbol :: (gap ++ negation))

/-- A term ends in front of the text: an operator follows, or nothing. -/
def EndsTerm (text : Text) : Prop := ∀ c ∈ (trimStart text).head?, Operator.isSymbol c = true

/-- The text begins with a `RETURN` or with a group that holds one. Behind it, `left` is left on its
level and on the levels around that, from the inside out. -/
inductive ReturnsAt : Text → List Text → Prop
  | here {behind : Text} (hbehind : EndsTerm behind) :
    ReturnsAt ("RETURN".toList ++ behind) [behind]
  /-- A level is read without the blanks at its ends. -/
  | within {inner front rest after : Text} {left : List Text} (hinner : inner.IsBalanced)
    (hfront : BeginsTerm front) (htrim : trim inner = front ++ rest) (hrest : ReturnsAt rest left) :
    ReturnsAt ('(' :: (inner ++ ')' :: after)) (left ++ [after])

/-- A term of the level is a `RETURN` or a group that holds one. -/
def LeavesBehind (text : Text) (left : List Text) : Prop :=
  ∃ front rest, BeginsTerm front ∧ text = front ++ rest ∧ ReturnsAt rest left

/-- One of the texts is not blank. -/
def HoldsText (texts : List Text) : Prop := ∃ text ∈ texts, ∃ c ∈ text, isBlank c = false

/-! ### What stands in front of a term -/

theorem not_isOrdinary_symbol (op : Operator) : ¬ IsOrdinary op.symbol := by
  cases op <;> exact fun h => Bool.false_ne_true h.1.symm

section Leads

variable {lead front text : Text}

/-- Ordinary characters are no brackets. -/
theorem count_of_isOrdinary (h : ∀ c ∈ text, IsOrdinary c) :
    text.count '(' = 0 ∧ text.count ')' = 0 :=
  ⟨List.count_eq_zero.mpr fun hmem => (h _ hmem).2.1 rfl,
    List.count_eq_zero.mpr fun hmem => (h _ hmem).2.2 rfl⟩

/-- Where a chain returns, a term begins. -/
theorem ReturnsAt.startsTerm {left : List Text} (h : ReturnsAt text left) :
    Written.StartsTerm text := by
  cases h with
  | here _ => exact ⟨⟨'R', _, rfl, rfl, rfl⟩, rfl⟩
  | within _ _ _ _ => exact ⟨⟨'(', _, rfl, rfl, rfl⟩, rfl⟩

theorem trimStart_of_startsTerm (h : Written.StartsTerm text) : trimStart text = text := by
  obtain ⟨c, rest, rfl, hc, -⟩ := h.head
  exact List.dropWhile_cons_of_neg (by simp [hc])

namespace IsNegation

theorem isOrdinary (h : IsNegation front) : ∀ c ∈ front, IsOrdinary c := by
  cases h with
  | absent => exact List.forall_mem_nil _
  | mark hgap =>
    exact List.forall_mem_cons.mpr
      ⟨⟨rfl, by decide, by decide⟩, fun c hc => Written.isOrdinary_of_isBlank (hgap c hc)⟩
  | @word gap hgap =>
    have hnot : ∀ c ∈ "NOT".toList, isNameChar c = true := List.all_eq_true.mp rfl
    have hblanks : ∀ c ∈ ' ' :: gap, isBlank c = true := List.forall_mem_cons.mpr ⟨rfl, hgap⟩
    have hword : ∀ c ∈ "NOT".toList ++ ' ' :: gap, IsOrdinary c :=
      List.forall_mem_append.mpr ⟨fun c hc => Written.isOrdinary_of_isNameChar (hnot c hc),
        fun c hc => Written.isOrdinary_of_isBlank (hblanks c hc)⟩
    exact hword

theorem isOrdinary_append {gap : Text} (hgap : ∀ c ∈ gap, isBlank c = true)
    (h : IsNegation front) : ∀ c ∈ gap ++ front, IsOrdinary c :=
  List.forall_mem_append.mpr
    ⟨fun c hc => Written.isOrdinary_of_isBlank (hgap c hc), h.isOrdinary⟩

/-- A negation is taken off in front of a term. -/
theorem negation_append (h : IsNegation front) (htext : Written.StartsTerm text) :
    (negation (front ++ text)).2 = text := by
  cases h with
  | absent => rw [List.nil_append, htext.plain]
  | mark hgap => exact (trimStart_append_of_blank hgap).trans (trimStart_of_startsTerm htext)
  | word hgap => exact (trimStart_append_of_blank hgap).trans (trimStart_of_startsTerm htext)

/-- A negated term begins with no blank and no operator. -/
theorem exists_head (h : IsNegation front) (htext : Written.StartsTerm text) :
    ∃ c rest, front ++ text = c :: rest ∧ isBlank c = false ∧ Operator.ofChar? c = none := by
  cases h with
  | absent => exact htext.head
  | mark _ => exact ⟨'!', _, rfl, rfl, rfl⟩
  | word _ => exact ⟨'N', _, rfl, rfl, rfl⟩

end IsNegation

/-- What stands in front of a term is taken off. -/
theorem IsLead.termHead_append (h : IsLead lead) (htext : Written.StartsTerm text) :
    (termHead (lead ++ text)).rest = text := by
  cases h with
  | plain hnegation =>
    have hleading : leadingOperator (lead ++ text) = (none, lead ++ text) := by
      obtain ⟨c, rest, hcons, -, hc⟩ := hnegation.exists_head htext
      simp [hcons, leadingOperator, hc]
    simp only [termHead, hleading, hnegation.negation_append htext]
  | @led gap negation op hgap hnegation =>
    have hleading : leadingOperator (op.symbol :: (gap ++ negation) ++ text) =
        (some op, negation ++ text) := by
      obtain ⟨c, rest, hcons, hc, -⟩ := hnegation.exists_head htext
      rw [List.cons_append, List.append_assoc, hcons, leadingOperator, Operator.ofChar?_symbol]
      simp only [trimStart_append_of_blank hgap]
      exact congrArg _ (List.dropWhile_cons_of_neg (by simp [hc]))
    simp only [termHead, hleading, hnegation.negation_append htext]

/-- What is taken off as negations are negations. -/
theorem exists_isNegation (text : Text) :
    ∃ front, IsNegation front ∧ text = front ++ (negation text).2 := by
  unfold negation
  split
  · rename_i rest
    obtain ⟨gap, hgap, hrest⟩ := exists_append_trimStart rest
    exact ⟨'!' :: gap, .mark hgap, congrArg ('!' :: ·) hrest⟩
  · rename_i rest
    obtain ⟨gap, hgap, hrest⟩ := exists_append_trimStart rest
    exact ⟨"NOT ".toList ++ gap, .word hgap, congrArg ("NOT ".toList ++ ·) hrest⟩
  · exact ⟨[], .absent, rfl⟩

/-- The reader takes off what stands in front of a term, and nothing else. -/
theorem exists_isLead (text : Text) :
    ∃ lead, IsLead lead ∧ text = lead ++ (termHead text).rest := by
  cases text with
  | nil => exact ⟨[], .plain .absent, rfl⟩
  | cons c rest =>
    cases hc : Operator.ofChar? c with
    | none =>
      obtain ⟨front, hfront, htext⟩ := exists_isNegation (c :: rest)
      exact ⟨front, .plain hfront, by simpa only [termHead, leadingOperator, hc] using htext⟩
    | some op =>
      obtain rfl := Operator.symbol_of_ofChar? hc
      obtain ⟨gap, hgap, hrest⟩ := exists_append_trimStart rest
      obtain ⟨front, hfront, hbehind⟩ := exists_isNegation (trimStart rest)
      refine ⟨op.symbol :: (gap ++ front), .led op hgap hfront, ?_⟩
      simp only [termHead, leadingOperator, hc, List.cons_append, List.append_assoc]
      rw [← hbehind, ← hrest]

/-- No blank stands in front of a term behind its operator and negation. -/
theorem trimStart_termHead (h : trimStart text = text) :
    trimStart (termHead text).rest = (termHead text).rest := by
  have hnegation {text : Text} (h : trimStart text = text) :
      trimStart (negation text).2 = (negation text).2 := by
    unfold negation
    split
    · exact trimStart_trimStart _
    · exact trimStart_trimStart _
    · exact h
  refine hnegation ?_
  cases text with
  | nil => rfl
  | cons c rest =>
    cases hc : Operator.ofChar? c with
    | none => simpa only [leadingOperator, hc] using h
    | some op => simpa only [leadingOperator, hc] using trimStart_trimStart rest

namespace IsLead

/-- An operator stands at most at the beginning. -/
theorem eq_nil_of_symbol {before after : Text} {op : Operator} (h : IsLead lead)
    (hlead : lead = before ++ op.symbol :: after) : before = [] := by
  cases before with
  | nil => rfl
  | cons d before =>
    have hmem : op.symbol ∈ before ++ op.symbol :: after :=
      List.mem_append_right _ List.mem_cons_self
    cases h with
    | plain hnegation =>
      rw [hlead] at hnegation
      exact absurd (hnegation.isOrdinary _ (List.mem_cons_of_mem _ hmem)) (not_isOrdinary_symbol op)
    | led _ hgap hnegation =>
      obtain ⟨-, hrest⟩ := List.cons.inj hlead
      rw [show before ++ op.symbol :: after = _ from hrest.symm] at hmem
      exact absurd (hnegation.isOrdinary_append hgap _ hmem) (not_isOrdinary_symbol op)

theorem count_eq_zero (h : IsLead lead) : lead.count '(' = 0 ∧ lead.count ')' = 0 := by
  cases h with
  | plain hnegation => exact count_of_isOrdinary hnegation.isOrdinary
  | led op hgap hnegation =>
    have hbehind := count_of_isOrdinary (hnegation.isOrdinary_append hgap)
    cases op <;> exact hbehind

/-- A term begins behind a lead. -/
theorem beginsTerm (h : IsLead lead) : BeginsTerm lead := by
  cases h with
  | plain hnegation => exact .first hnegation
  | @led gap negation op hgap hnegation =>
    have hlater : BeginsTerm ([] ++ op.symbol :: (gap ++ negation)) :=
      .later op rfl hgap hnegation
    exact hlater

end IsLead

end Leads

/-! ### Tokens -/

section Tokens

variable {text token behind : Text}

/-- A term ends where nothing or an operator comes next. -/
theorem endsTerm_iff : EndsTerm text ↔ startsBare (trimStart text) = false := by
  unfold EndsTerm
  cases trimStart text with
  | nil => simp [startsBare]
  | cons c rest => simp [startsBare]

/-- A `RETURN` in front of the end of its term is a token. -/
theorem exists_splitToken_return (h : EndsTerm behind) :
    ∃ token, splitToken 0 ("RETURN".toList ++ behind) = (token, trimStart behind) ∧
      trim token = "RETURN".toList := by
  obtain ⟨gap, hgap, hbehind⟩ := exists_append_trimStart behind
  have hrun : IsRun ("RETURN".toList ++ gap) :=
    (Written.isRun_word ⟨by decide, rfl⟩).append
      (IsRun.of_chars fun c hc => Written.isOrdinary_of_isBlank (hgap c hc))
  refine ⟨"RETURN".toList ++ gap, ?_, ?_⟩
  · have hsplit := hrun (trimStart behind)
    rw [splitToken_of_startsBare (endsTerm_iff.mp h), List.append_nil, List.append_assoc,
      ← hbehind] at hsplit
    exact hsplit
  · rw [trim_append_of_blank hgap]
    rfl

/-- A token that is a `RETURN` ends its term. -/
theorem exists_append_of_return (htext : trimStart text = text)
    (hsplit : splitToken 0 text = (token, behind)) (htoken : trim token = "RETURN".toList) :
    ∃ gap : Text, (∀ c ∈ gap, isBlank c = true) ∧ text = "RETURN".toList ++ (gap ++ behind) ∧
      EndsTerm (gap ++ behind) := by
  obtain ⟨front, gap, hfront, hgap, hpad⟩ := exists_pad token
  have happend := splitToken_append 0 text
  have hbare := startsBare_splitToken 0 text
  rw [hsplit] at happend hbare
  rw [hpad, htoken, List.append_assoc, List.append_assoc] at happend
  -- Nothing is trimmed off the text, so the word stands at its beginning.
  have hstart : trimStart text = "RETURN".toList ++ (gap ++ behind) := by
    rw [← happend, trimStart_append_of_blank hfront]
    rfl
  refine ⟨gap, hgap, htext.symm.trans hstart, ?_⟩
  rw [endsTerm_iff, trimStart_append_of_blank hgap, trimStart_of_startsBare hbare]
  exact hbare

end Tokens

/-! ### The first term -/

/-- The first term of a text, with what stands in front of it, and the text behind it. -/
structure IsFirstTerm (text term behind : Text) : Prop where
  append : text = term ++ behind
  /-- An operator that is not the first character stands inside brackets. -/
  inside : ∀ before after op, term = before ++ Operator.symbol op :: after →
    before = [] ∨ before.count '(' ≠ before.count ')'
  closed : behind ≠ [] → term.count '(' = term.count ')'

section FirstTerm

variable {text term token inner behind : Text} {left : List Text}

/-- What stands in front of a term belongs to it. -/
theorem isFirstTerm_of_rest (term : Text) (happend : (termHead text).rest = term ++ behind)
    (hinside : ∀ before after op, term = before ++ Operator.symbol op :: after →
      before.count '(' ≠ before.count ')')
    (hclosed : behind ≠ [] → term.count '(' = term.count ')') :
    ∃ term, IsFirstTerm text term behind := by
  obtain ⟨lead, hlead, htext⟩ := exists_isLead text
  obtain ⟨hopen, hclose⟩ := hlead.count_eq_zero
  rw [happend, ← List.append_assoc] at htext
  refine ⟨lead ++ term, htext, ?_, ?_⟩
  · intro before after op hterm
    rcases append_eq_append_cons hterm with ⟨rest, hfront, -⟩ | ⟨rest, rfl, hback⟩
    · exact .inl (hlead.eq_nil_of_symbol hfront)
    · have hne := hinside rest after op hback
      right
      simp only [List.count_append]
      omega
  · intro hne
    have heq := hclosed hne
    simp only [List.count_append]
    omega

/-- A token is the first term of a level. -/
theorem exists_isFirstTerm_of_splitToken
    (hsplit : splitToken 0 (termHead text).rest = (token, behind)) :
    ∃ term, IsFirstTerm text term behind := by
  refine isFirstTerm_of_rest token ?_ ?_ ?_
  · rw [← splitToken_append 0 (termHead text).rest, hsplit]
  · intro before after op hterm
    have hdepth := depth_ne_zero_of_mem_splitToken ((congrArg Prod.fst hsplit).trans hterm)
    omega
  · intro hne
    have hdepth := depth_eq_zero_of_splitToken (ne_of_eq_of_ne (congrArg Prod.snd hsplit) hne)
    simp only [hsplit] at hdepth
    omega

/-- So is a group. -/
theorem exists_isFirstTerm_of_enclosed?
    (hgroup : enclosed? (termHead text).rest = some (inner, behind)) :
    ∃ term, IsFirstTerm text term (trimStart behind) := by
  have hinner := isBalanced_of_enclosed? hgroup
  obtain ⟨gap, hgap, hbehind⟩ := exists_append_trimStart behind
  have hordinary (c : Char) (hc : c ∈ gap) : IsOrdinary c :=
    Written.isOrdinary_of_isBlank (hgap c hc)
  obtain ⟨hopen, hclose⟩ := count_of_isOrdinary hordinary
  refine isFirstTerm_of_rest ('(' :: (inner ++ ')' :: gap)) ?_ ?_ fun _ => ?_
  · rw [enclosed?_eq_some hgroup, List.cons_append, List.append_assoc, List.cons_append, ← hbehind]
  · intro before after op hterm
    cases before with
    | nil =>
      obtain ⟨hsymbol, -⟩ := List.cons.inj hterm
      cases op <;> cases hsymbol
    | cons d before =>
      obtain ⟨rfl, hrest⟩ := List.cons.inj hterm
      -- The operator stands behind the bracket, or among the blanks.
      rcases append_eq_append_cons hrest with ⟨rest, hfront, -⟩ | ⟨rest, -, hback⟩
      · have hle := hinner.closed_le before ⟨_, hfront.symm⟩
        simp
        omega
      · have hmem : op.symbol ∈ ')' :: gap := by
          rw [hback]
          exact List.mem_append_right _ List.mem_cons_self
        rcases List.mem_cons.mp hmem with hsymbol | hmem
        · cases op <;> cases hsymbol
        · exact absurd (hordinary _ hmem) (not_isOrdinary_symbol op)
  · have heq := hinner.closed_eq
    simp
    omega

/-- Nothing is left behind where nothing stands. -/
theorem not_leavesBehind_nil : ¬ LeavesBehind [] left := by
  rintro ⟨front, rest, -, htext, hrest⟩
  obtain ⟨c, more, rfl, -⟩ := hrest.startsTerm.head
  simp at htext

/-- A term in front of others does not change what these leave behind. -/
theorem LeavesBehind.prepend (hterm : IsFirstTerm text term behind)
    (hbare : startsBare behind = false) (h : LeavesBehind behind left) :
    LeavesBehind text left := by
  obtain ⟨front, rest, hfront, hbehind, hrest⟩ := h
  obtain rfl := hterm.append
  cases hfront with
  | first hnegation =>
    -- A later term has an operator in front.
    obtain ⟨c, more, hcons, -, hc⟩ := hnegation.exists_head hrest.startsTerm
    rw [hbehind, hcons] at hbare
    simp [startsBare, Operator.isSymbol, hc] at hbare
  | @later before gap negation op hbefore hgap hnegation =>
    have hclosed := hterm.closed (by simp [hbehind])
    have hcount : (term ++ before).count '(' = (term ++ before).count ')' := by
      simp only [List.count_append]
      omega
    refine ⟨_, rest, .later op hcount hgap hnegation, ?_, hrest⟩
    rw [hbehind, List.append_assoc, List.append_assoc, List.append_assoc]

/-- A `RETURN` stands in the first term, or in the terms behind it. -/
theorem LeavesBehind.first_or_later (h : LeavesBehind text left)
    (hterm : IsFirstTerm text term behind) :
    ReturnsAt (termHead text).rest left ∨
      LeavesBehind behind left ∧ ∃ c ∈ behind, isBlank c = false := by
  obtain ⟨front, rest, hfront, htext, hrest⟩ := h
  -- What begins the first term is taken off.
  have hfirst (hlead : IsLead front) : ReturnsAt (termHead text).rest left := by
    rwa [htext, hlead.termHead_append hrest.startsTerm]
  cases hfront with
  | first hnegation => exact .inl (hfirst (.plain hnegation))
  | @later before gap negation op hbefore hgap hnegation =>
    have hcut : term ++ behind = before ++ op.symbol :: (gap ++ negation ++ rest) := by
      rw [← hterm.append, htext]
      simp
    -- The operator in front of the `RETURN` is the first character, or stands behind the term.
    rcases append_eq_append_cons hcut with ⟨inside, hfront, -⟩ | ⟨between, rfl, hback⟩
    · rcases hterm.inside before inside op hfront with rfl | hne
      · exact .inl (hfirst (.led op hgap hnegation))
      · exact absurd hbefore hne
    · right
      have hclosed := hterm.closed (by simp [hback])
      have hcount : between.count '(' = between.count ')' := by
        simp only [List.count_append] at hbefore
        omega
      refine ⟨⟨_, rest, .later op hcount hgap hnegation, ?_, hrest⟩, op.symbol, ?_,
        op.isBlank_symbol⟩
      · rw [hback]
        simp
      · rw [hback]
        exact List.mem_append_right _ List.mem_cons_self

end FirstTerm

end SignalScript
