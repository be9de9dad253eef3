import SignalScript.Proofs.Expression.LevelTree
import SignalScript.Proofs.Listing.Atom

/-!
# Listings of chains

The listing of a flat chain is that of its tree, with a pair of brackets for every group. It is
read back from the front: an operator, an exclamation mark, and then a token or a bracket show what
the next term is, and a closing bracket or the end of the text that there is none.

## Main definitions

* `LevelTree.text` — the listing of a tree
* `EndsLevel` — a text that ends the terms of a level in front of it

## Main results

* `listing_terms` — the listing of a flat chain is that of its tree
* `LevelTree.text_unique` — the tree that a text begins with is determined
* `Chain.listing_injective` — no two chains that were read have the same listing
-/

namespace SignalScript

open Text

variable {locals : List Text}

/-- The listing of the terms of a level, with those of the groups in it. -/
def LevelTree.text (locals : List Text) (isFirst : Bool) : LevelTree → Text
  | .done => []
  | .atom negated operator a more =>
    operatorListing isFirst operator ++ (negationListing negated ++
      (a.listing locals ++ more.text locals false))
  | .ret negated operator =>
    operatorListing isFirst operator ++ (negationListing negated ++ "RETURN".toList)
  | .group negated operator inner more =>
    operatorListing isFirst operator ++ (negationListing negated ++
      ('(' :: (inner.text locals true ++ ')' :: more.text locals false)))

/-! ### The listing of a flat chain -/

section Flat

open Written (HoldsLevels)

variable {whole : SignalScript.Chain}

/-- What a term at level `level` of the whole chain is listed as. -/
def factorListing (locals : List Text) (whole : SignalScript.Chain) (level : Nat) : Factor → Text
  | .atom atom => atom.listing locals
  | .ret => "RETURN".toList
  | .group id =>
    if level < id ∧ id ≤ whole.length then '(' :: Chain.listing locals whole id ++ [')']
    else "()".toList

/-- A level of a chain is listed term by term. -/
theorem listing_eq_listTerms (level : Nat) : Chain.listing locals whole level =
    listTerms (factorListing locals whole level) true (atLevel level whole) := by
  rw [Chain.listing]
  rfl

theorem listTerms_cons (factor : Factor → Text) (isFirst : Bool) (term : Term)
    (later : List Term) :
    listTerms factor isFirst (term :: later) =
      operatorListing isFirst term.operator ++ (negationListing term.negated ++
        (factor term.factor ++ listTerms factor false later)) := by
  simp [listTerms]

/-- The terms of a level that the whole chain holds are listed as their tree. -/
theorem listTerms_atLevel (tree : LevelTree) {level last : Nat} (isFirst : Bool)
    (hlevel : level ≤ last) (hfit : last + tree.groups ≤ whole.length)
    (hholds : HoldsLevels whole last (last + tree.groups) (tree.terms level last)) :
    listTerms (factorListing locals whole level) isFirst (atLevel level (tree.terms level last)) =
      tree.text locals isFirst := by
  induction tree generalizing level last isFirst with
  | done => rfl
  | atom negated operator a more ih =>
    have hmore := ih false hlevel hfit fun id hlow hhigh => by
      rw [hholds id hlow hhigh]
      exact atLevel_cons_of_ne (Nat.ne_of_lt (Nat.lt_of_le_of_lt hlevel hlow))
    rw [LevelTree.terms, atLevel_cons_self, listTerms_cons, hmore]
    rfl
  | ret negated operator =>
    rw [LevelTree.terms, atLevel_cons_self, listTerms_cons, atLevel_nil, listTerms, List.append_nil]
    rfl
  | group negated operator inner more ihinner ihmore =>
    obtain ⟨hinside, hinner⟩ := holdsLevels_inner hlevel rfl hholds
    have hbehind := holdsLevels_more hlevel rfl hholds
    rw [LevelTree.groups] at hfit
    -- The whole chain holds the terms of the group under the level that is looked up for it.
    have hgroup : Chain.listing locals whole (last + 1) = inner.text locals true := by
      rw [listing_eq_listTerms, hinside]
      exact ihinner true (Nat.le_refl _) (by omega) hinner
    have hfactor : factorListing locals whole level (.group (last + 1)) =
        '(' :: inner.text locals true ++ [')'] := by
      rw [factorListing, if_pos ⟨by omega, by omega⟩, hgroup]
    rw [LevelTree.terms, atLevel_cons_self, atLevel_append, atLevel_inner_eq_nil hlevel,
      List.nil_append, listTerms_cons, hfactor,
      ihmore false (by omega) (by omega) hbehind]
    simp [LevelTree.text]

/-- The listing of a flat chain is that of its tree. -/
theorem listing_terms (tree : LevelTree) :
    Chain.listing locals (tree.terms 0 0) 0 = tree.text locals true := by
  have hfit := tree.groups_le 0 0
  rw [listing_eq_listTerms]
  exact listTerms_atLevel tree true (Nat.le_refl 0) (by omega) fun _ _ _ => rfl

end Flat

/-! ### Terms in front of a text -/

/-- The terms of a level end in front of the text. -/
def EndsLevel (text : Text) : Prop := ∀ c ∈ text.head?, c = ')'

theorem endsLevel_nil : EndsLevel [] := fun _ h => by cases h

theorem endsLevel_close {text : Text} : EndsLevel (')' :: text) := by
  intro c hc
  exact (Option.some.inj hc).symm

theorem EndsLevel.endsAtom {text : Text} (h : EndsLevel text) : EndsAtom text := by
  intro c hc
  rw [h c hc]
  decide

/-- The text begins as an operand, a call or a group does. -/
def StartsFactor (text : Text) : Prop :=
  ∃ c rest, text = c :: rest ∧ (isNameChar c = true ∨ c = '(')

theorem startsFactor_return {rest : Text} : StartsFactor ("RETURN".toList ++ rest) :=
  ⟨'R', _, rfl, .inl rfl⟩

theorem startsFactor_open {rest : Text} : StartsFactor ('(' :: rest) := ⟨'(', _, rfl, .inr rfl⟩

section Heads

variable {isFirst negated negated' : Bool} {operator operator' : Option Operator}
  {text text' : Text}

/-- No operator is written with the first character of a factor. -/
theorem symbol_ne {op : Operator} {c : Char} (h : isNameChar c = true ∨ c = '(') :
    op.symbol ≠ c := by
  rintro rfl
  rcases h with h | h
  · cases op <;> cases h
  · cases op <;> cases h

/-- Operators have different symbols. -/
theorem symbol_injective {op op' : Operator} (h : op.symbol = op'.symbol) : op = op' := by
  have hop := Operator.ofChar?_symbol op
  rw [h, Operator.ofChar?_symbol] at hop
  exact (Option.some.inj hop).symm

/-- No factor begins with an exclamation mark. -/
theorem StartsFactor.ne_mark (h : StartsFactor text) (rest : Text) : text ≠ '!' :: rest := by
  obtain ⟨c, behind, rfl, hc⟩ := h
  intro heq
  obtain ⟨rfl, -⟩ := List.cons.inj heq
  rcases hc with hc | hc <;> cases hc

/-- What is not negated does not begin with an exclamation mark. -/
theorem negationListing_unique (htext : ∀ rest, text ≠ '!' :: rest)
    (htext' : ∀ rest, text' ≠ '!' :: rest)
    (h : negationListing negated ++ text = negationListing negated' ++ text') :
    negated = negated' ∧ text = text' := by
  cases negated <;> cases negated'
  · exact ⟨rfl, h⟩
  · exact absurd h (htext _)
  · exact absurd h.symm (htext' _)
  · exact ⟨rfl, (List.cons.inj h).2⟩

/-- A term does not begin with an operator of its own, and only a first term has none. -/
theorem operatorListing_unique (hled : isFirst = false → operator ≠ none)
    (hled' : isFirst = false → operator' ≠ none) (htext : StartsFactor text)
    (htext' : StartsFactor text')
    (h : operatorListing isFirst operator ++ (negationListing negated ++ text) =
      operatorListing isFirst operator' ++ (negationListing negated' ++ text')) :
    operator = operator' ∧ negated = negated' ∧ text = text' := by
  -- A negated or plain factor does not begin with an operator.
  have hsymbol {op : Operator} {negated : Bool} {text rest : Text} (htext : StartsFactor text) :
      negationListing negated ++ text ≠ op.symbol :: rest := by
    obtain ⟨c, behind, rfl, hc⟩ := htext
    cases negated with
    | true => cases op <;> exact fun heq => nomatch (List.cons.inj heq).1
    | false => exact fun heq => symbol_ne hc (List.cons.inj heq).1.symm
  cases isFirst with
  | true =>
    match operator, operator' with
    | none, none => exact ⟨rfl, negationListing_unique htext.ne_mark htext'.ne_mark h⟩
    | none, some op => exact absurd h (hsymbol htext)
    | some op, none => exact absurd h.symm (hsymbol htext')
    | some op, some op' =>
      obtain ⟨hop, hbehind⟩ := List.cons.inj h
      exact ⟨congrArg some (symbol_injective hop),
        negationListing_unique htext.ne_mark htext'.ne_mark hbehind⟩
  | false =>
    obtain ⟨op, rfl⟩ := Option.ne_none_iff_exists'.mp (hled rfl)
    obtain ⟨op', rfl⟩ := Option.ne_none_iff_exists'.mp (hled' rfl)
    obtain ⟨hop, hbehind⟩ := List.cons.inj (List.cons.inj h).2
    exact ⟨congrArg some (symbol_injective hop),
      negationListing_unique htext.ne_mark htext'.ne_mark (List.cons.inj hbehind).2⟩

/-- A term does not begin where a level ends. -/
theorem not_endsLevel (htext : StartsFactor text) :
    ¬ EndsLevel (operatorListing isFirst operator ++ (negationListing negated ++ text)) := by
  obtain ⟨c, rest, rfl, hc⟩ := htext
  intro h
  cases operator with
  | some op => cases isFirst <;> cases op <;> exact absurd (h _ rfl) (by decide)
  | none =>
    cases negated with
    | true => exact absurd (h '!' rfl) (by decide)
    | false =>
      obtain rfl := h c rfl
      rcases hc with hc | hc <;> cases hc

/-- Behind an operand or call that is not the last, a space follows. -/
theorem endsAtom_operatorListing (hled : operator ≠ none) :
    EndsAtom (operatorListing false operator ++ text) := by
  obtain ⟨op, rfl⟩ := Option.ne_none_iff_exists'.mp hled
  exact endsAtom_cons rfl (by decide)

end Heads

theorem Atom.IsTerm.readsBack {atom : Atom} (h : atom.IsTerm locals) : atom.ReadsBack locals := by
  obtain ⟨text, hread⟩ := h
  exact Atom.readsBack_read hread

/-- A word can begin a factor. -/
theorem startsFactor_word {word rest : Text} (h : IsWord word) : StartsFactor (word ++ rest) := by
  obtain ⟨c, text, rfl, hc⟩ := h.exists_cons
  exact ⟨c, text ++ rest, rfl, .inl hc⟩

/-- Without a sign, a number is a row of digits, and every other operand is listed as a word. -/
theorem Operand.isWord_of_isTerm {o : Operand}
    (hlocals : ∀ name ∈ locals, isIdentifier name = true) (h : Atom.IsTerm locals (.operand o)) :
    IsWord (o.listing locals) := by
  by_cases hnumber : ∃ value, o = .constant value
  · obtain ⟨value, rfl⟩ := hnumber
    obtain ⟨n, hn⟩ := Int.eq_ofNat_of_zero_le h.nonneg
    rw [Operand.listing, hn]
    exact ⟨Decimal.writeNat_ne_nil n, List.all_eq_true.mpr fun _ hc =>
      isNameChar_of_isDigit (Decimal.isDigit_of_mem_writeNat hc)⟩
  · exact Operand.isWord_listing hlocals h.readsBack fun value heq => hnumber ⟨value, heq⟩

/-- What stands in a chain is listed with a character of a word in front. -/
theorem Atom.IsTerm.startsFactor {atom : Atom}
    (hlocals : ∀ name ∈ locals, isIdentifier name = true) (h : atom.IsTerm locals)
    (rest : Text) : StartsFactor (atom.listing locals ++ rest) := by
  match atom, h with
  | .call c, h =>
    rw [Atom.listing, Call.listing_append]
    exact startsFactor_word (isWord_functionName c.function)
  | .operand o, h => exact startsFactor_word (Operand.isWord_of_isTerm hlocals h)

/-! ### Trees -/

namespace LevelTree

variable {tree other : LevelTree} {isFirst negated : Bool} {operator : Option Operator}
  {rest rest' : Text}

/-- Every operand and call in the tree was read from a token of a chain. -/
def HasTerms (locals : List Text) (tree : LevelTree) : Prop :=
  ∀ atom ∈ tree.atoms, atom.IsTerm locals

/-- The negation and the operator of the first term. -/
def first? : LevelTree → Option (Bool × Option Operator)
  | done => none
  | atom negated operator _ _ => some (negated, operator)
  | ret negated operator => some (negated, operator)
  | group negated operator _ _ => some (negated, operator)

/-- The listing behind the negation of the first term. -/
def factorText (locals : List Text) : LevelTree → Text
  | done => []
  | atom _ _ a more => a.listing locals ++ more.text locals false
  | ret _ _ => "RETURN".toList
  | group _ _ inner more => '(' :: (inner.text locals true ++ ')' :: more.text locals false)

/-- A level without a first term is empty. -/
theorem eq_done_of_first? (h : tree.first? = none) : tree = .done := by
  cases tree with
  | done => rfl
  | _ => cases h

/-- The text of a level is the operator and the negation of its first term and then its factor. -/
theorem text_eq (h : tree.first? = some (negated, operator)) :
    tree.text locals isFirst = operatorListing isFirst operator ++
      (negationListing negated ++ tree.factorText locals) := by
  cases tree with
  | done => cases h
  | _ =>
    obtain ⟨rfl, rfl⟩ := Prod.mk.inj (Option.some.inj h)
    rfl

theorem text_append (h : tree.first? = some (negated, operator)) :
    tree.text locals isFirst ++ rest = operatorListing isFirst operator ++
      (negationListing negated ++ (tree.factorText locals ++ rest)) := by
  rw [text_eq h, List.append_assoc, List.append_assoc]

/-- The factor of a group stands in brackets, and the further terms behind them. -/
theorem group_append (inner more : LevelTree) :
    (group negated operator inner more).factorText locals ++ rest =
      '(' :: (inner.text locals true ++ ')' :: (more.text locals false ++ rest)) := by
  simp only [factorText, List.append_assoc, List.cons_append]

/-- Behind operator and negation begins a factor. -/
theorem startsFactor_factorText (hlocals : AreListable locals) (hterms : tree.HasTerms locals)
    (h : tree.first? = some (negated, operator)) (rest : Text) :
    StartsFactor (tree.factorText locals ++ rest) := by
  cases tree with
  | done => cases h
  | atom negated operator a more =>
    rw [factorText, List.append_assoc]
    exact (hterms a List.mem_cons_self).startsFactor hlocals.isIdentifier _
  | ret negated operator => exact startsFactor_return
  | group negated operator inner more => exact startsFactor_open

/-- Where every term has an operator, the first term has. -/
theorem operator_ne_none (hled : tree.IsLed true) (h : tree.first? = some (negated, operator)) :
    operator ≠ none := by
  cases tree with
  | done => cases h
  | atom => exact (Prod.mk.inj (Option.some.inj h)).2 ▸ hled.1 rfl
  | ret => exact (Prod.mk.inj (Option.some.inj h)).2 ▸ hled rfl
  | group => exact (Prod.mk.inj (Option.some.inj h)).2 ▸ hled.1 rfl

/-- Behind a term that is not the last, a space follows. -/
theorem endsAtom_text (hled : tree.IsLed true) (hrest : EndsLevel rest) :
    EndsAtom (tree.text locals false ++ rest) := by
  cases hfirst : tree.first? with
  | none =>
    rw [eq_done_of_first? hfirst]
    exact hrest.endsAtom
  | some first =>
    rw [text_append hfirst]
    exact endsAtom_operatorListing (operator_ne_none hled hfirst)

/-- A further term begins with its operator, not with a bracket. -/
theorem text_ne_open {text : Text} (hled : tree.IsLed true) :
    tree.text locals false ≠ ' ' :: '(' :: text := by
  cases hfirst : tree.first? with
  | none =>
    rw [eq_done_of_first? hfirst]
    exact fun heq => nomatch heq
  | some first =>
    obtain ⟨op, hop⟩ := Option.ne_none_iff_exists'.mp (operator_ne_none hled hfirst)
    rw [text_eq hfirst, hop]
    exact fun heq => symbol_ne (.inr rfl) (List.cons.inj (List.cons.inj heq).2).1

/-- What stands in front of the first factor is determined, and so is whether there is one. -/
theorem first?_unique (hlocals : AreListable locals) (hled : tree.IsLed !isFirst)
    (hled' : other.IsLed !isFirst) (hterms : tree.HasTerms locals)
    (hterms' : other.HasTerms locals) (hrest : EndsLevel rest) (hrest' : EndsLevel rest')
    (h : tree.text locals isFirst ++ rest = other.text locals isFirst ++ rest') :
    tree.first? = other.first? ∧
      tree.factorText locals ++ rest = other.factorText locals ++ rest' := by
  -- No term begins where the other level ends.
  have hends {tree other : LevelTree} {first : Bool × Option Operator} {rest rest' : Text}
      (hterms : tree.HasTerms locals) (hfirst : tree.first? = some first) (hother : other = .done)
      (hrest' : EndsLevel rest') :
      tree.text locals isFirst ++ rest ≠ other.text locals isFirst ++ rest' := by
    rw [hother, text_append hfirst]
    intro heq
    exact not_endsLevel (startsFactor_factorText hlocals hterms hfirst rest)
      (by rw [heq]; exact hrest')
  cases hfirst : tree.first? with
  | none =>
    cases hfirst' : other.first? with
    | none =>
      rw [eq_done_of_first? hfirst, eq_done_of_first? hfirst'] at h ⊢
      exact ⟨rfl, h⟩
    | some first' => exact absurd h.symm (hends hterms' hfirst' (eq_done_of_first? hfirst) hrest)
  | some first =>
    cases hfirst' : other.first? with
    | none => exact absurd h (hends hterms hfirst (eq_done_of_first? hfirst') hrest')
    | some first' =>
      rw [text_append hfirst, text_append hfirst'] at h
      obtain ⟨hoperator, hnegated, hbehind⟩ := operatorListing_unique
        (by rintro rfl; exact operator_ne_none hled hfirst)
        (by rintro rfl; exact operator_ne_none hled' hfirst')
        (startsFactor_factorText hlocals hterms hfirst rest)
        (startsFactor_factorText hlocals hterms' hfirst' rest') h
      exact ⟨congrArg some (Prod.ext hnegated hoperator), hbehind⟩

/-- The tree that a text begins with is determined. -/
theorem text_unique (isFirst : Bool) (hlocals : AreListable locals) (hled : tree.IsLed !isFirst)
    (hled' : other.IsLed !isFirst) (hterms : tree.HasTerms locals)
    (hterms' : other.HasTerms locals) (hrest : EndsLevel rest) (hrest' : EndsLevel rest')
    (h : tree.text locals isFirst ++ rest = other.text locals isFirst ++ rest') :
    tree = other ∧ rest = rest' := by
  -- A word, a name and a bracket are told apart by their first characters.
  have hreturn {atom : Atom} {more : LevelTree} {rest rest' : Text} (hatom : atom.IsTerm locals)
      (hmore : more.IsLed true) (hrest : EndsLevel rest) (hrest' : EndsLevel rest') :
      atom.listing locals ++ more.text locals false ++ rest ≠ "RETURN".toList ++ rest' := by
    rw [List.append_assoc]
    exact Atom.listing_ne_word hlocals hatom.readsBack List.mem_cons_self
      (endsAtom_text hmore hrest) hrest'.endsAtom
  have hbracket {atom : Atom} {text rest rest' : Text} (hatom : atom.IsTerm locals) :
      atom.listing locals ++ text ++ rest ≠ '(' :: rest' := by
    rw [List.append_assoc]
    exact Atom.listing_ne_cons hlocals hatom.readsBack rfl _ rest'
  -- The induction is on the tree, with any text behind the level: that of a group is the bracket.
  induction tree generalizing other isFirst rest rest' with
  | done =>
    obtain ⟨hfirst, hbody⟩ := first?_unique hlocals hled hled' hterms hterms' hrest hrest' h
    cases other with
    | done => exact ⟨rfl, hbody⟩
    | _ => cases hfirst
  | atom negated operator a more ih =>
    obtain ⟨hfirst, hbody⟩ := first?_unique hlocals hled hled' hterms hterms' hrest hrest' h
    have ha := hterms a List.mem_cons_self
    cases other with
    | done => cases hfirst
    | atom negated' operator' a' more' =>
      obtain ⟨rfl, rfl⟩ := Prod.mk.inj (Option.some.inj hfirst)
      have ha' := hterms' a' List.mem_cons_self
      rw [factorText, factorText, List.append_assoc, List.append_assoc] at hbody
      obtain ⟨rfl, hbehind⟩ := Atom.listing_unique hlocals ha.readsBack ha'.readsBack
        (endsAtom_text hled.2 hrest) (endsAtom_text hled'.2 hrest') hbody
      obtain ⟨rfl, hsame⟩ := ih false hled.2 hled'.2
        (fun b hb => hterms b (List.mem_cons_of_mem _ hb))
        (fun b hb => hterms' b (List.mem_cons_of_mem _ hb)) hrest hrest' hbehind
      exact ⟨rfl, hsame⟩
    | ret => exact absurd hbody (hreturn ha hled.2 hrest hrest')
    | group => exact absurd hbody (hbracket ha)
  | ret negated operator =>
    obtain ⟨hfirst, hbody⟩ := first?_unique hlocals hled hled' hterms hterms' hrest hrest' h
    cases other with
    | done => cases hfirst
    | atom negated' operator' a' more' =>
      exact absurd hbody.symm (hreturn (hterms' a' List.mem_cons_self) hled'.2 hrest' hrest)
    | ret =>
      obtain ⟨rfl, rfl⟩ := Prod.mk.inj (Option.some.inj hfirst)
      exact ⟨rfl, List.append_cancel_left hbody⟩
    | group => exact absurd (List.cons.inj hbody).1 (by decide)
  | group negated operator inner more ihinner ihmore =>
    obtain ⟨hfirst, hbody⟩ := first?_unique hlocals hled hled' hterms hterms' hrest hrest' h
    cases other with
    | done => cases hfirst
    | atom negated' operator' a' more' =>
      exact absurd hbody.symm (hbracket (hterms' a' List.mem_cons_self))
    | ret => exact absurd (List.cons.inj hbody).1 (by decide)
    | group negated' operator' inner' more' =>
      obtain ⟨rfl, rfl⟩ := Prod.mk.inj (Option.some.inj hfirst)
      rw [group_append, group_append] at hbody
      -- The group ends at its closing bracket, and the level goes on behind it.
      obtain ⟨rfl, hbehind⟩ := ihinner true hled.2.1 hled'.2.1
        (fun b hb => hterms b (List.mem_append_left _ hb))
        (fun b hb => hterms' b (List.mem_append_left _ hb)) endsLevel_close endsLevel_close
        (List.cons.inj hbody).2
      obtain ⟨rfl, hsame⟩ := ihmore false hled.2.2 hled'.2.2
        (fun b hb => hterms b (List.mem_append_right _ hb))
        (fun b hb => hterms' b (List.mem_append_right _ hb)) hrest hrest' (List.cons.inj hbehind).2
      exact ⟨rfl, hsame⟩

/-- Behind a name in front of a chain no bracket follows a space: only operators stand between
spaces. -/
theorem text_ne_word_open {word text : Text} (hlocals : AreListable locals)
    (hled : tree.IsLed false) (hterms : tree.HasTerms locals) (hword : IsWord word) :
    tree.text locals true ≠ word ++ ' ' :: '(' :: text := by
  have hspace : EndsToken (' ' :: '(' :: text) := endsToken_cons rfl
  intro heq
  -- No operator and no exclamation mark stands in front of the word.
  have hbody : tree.factorText locals = word ++ ' ' :: '(' :: text := by
    cases hfirst : tree.first? with
    | none =>
      rw [eq_done_of_first? hfirst] at heq ⊢
      exact heq
    | some first =>
      have hstarts := startsFactor_factorText hlocals hterms hfirst []
      have hanyFirst {operator : Option Operator} : true = false → operator ≠ none :=
        fun h => nomatch h
      have hsame : operatorListing true first.2 ++
          (negationListing first.1 ++ tree.factorText locals) =
          operatorListing true none ++
            (negationListing false ++ (word ++ ' ' :: '(' :: text)) :=
        (text_eq hfirst).symm.trans heq
      rw [List.append_nil] at hstarts
      exact (operatorListing_unique hanyFirst hanyFirst hstarts (startsFactor_word hword) hsame).2.2
  cases tree with
  | done =>
    obtain ⟨c, rest, rfl, -⟩ := hword.exists_cons
    cases hbody
  | atom negated operator a more =>
    match a, hterms a List.mem_cons_self with
    | .operand o, ha =>
      have hends : EndsAtom (more.text locals false ++ []) := endsAtom_text hled.2 endsLevel_nil
      rw [List.append_nil] at hends
      obtain ⟨-, hbehind⟩ := token_unique
        (Operand.isToken_listing hlocals.isIdentifier ha.readsBack) hword.isToken
        hends.endsToken hspace hbody
      exact text_ne_open hled.2 hbehind
    | .call call, ha =>
      rw [factorText, Atom.listing, Call.listing_append] at hbody
      obtain ⟨-, hbehind⟩ := token_unique (isWord_functionName _).isToken hword.isToken
        (endsToken_cons rfl) hspace hbody
      exact absurd (List.cons.inj hbehind).1 (by decide)
  | ret negated operator =>
    have hreturn : IsToken "RETURN".toList := by decide
    have hplain : "RETURN".toList ++ [] = word ++ ' ' :: '(' :: text := hbody
    obtain ⟨-, hbehind⟩ := token_unique hreturn hword.isToken endsToken_nil hspace hplain
    cases hbehind
  | group negated operator inner more => exact token_ne_cons hword.isToken rfl hbody.symm

end LevelTree

/-- No two chains that were read have the same listing. -/
theorem Chain.listing_injective {chain other : SignalScript.Chain} {source source' : Text}
    (hlocals : AreListable locals) (h : (Chain.read locals source).value = some chain)
    (h' : (Chain.read locals source').value = some other)
    (hlisting : Chain.listing locals chain 0 = Chain.listing locals other 0) : chain = other := by
  obtain ⟨tree, hled, rfl, hterms⟩ := Chain.exists_tree h
  obtain ⟨tree', hled', rfl, hterms'⟩ := Chain.exists_tree h'
  rw [listing_terms, listing_terms] at hlisting
  obtain ⟨rfl, -⟩ := LevelTree.text_unique true hlocals hled hled' hterms hterms'
    endsLevel_nil endsLevel_nil (congrArg (· ++ []) hlisting)
  rfl

end SignalScript
