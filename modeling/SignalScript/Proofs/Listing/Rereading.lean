import SignalScript.Proofs.Expression.LevelRun
import SignalScript.Proofs.Fuel.Chain
import SignalScript.Proofs.Listing.AtomReading

/-!
# Reading listed chains

The listing of a chain that was read is read as that chain again: the run of the reader over the
listing follows the tree of the chain, term by term, and opens its groups in the same order. What
else stood in the text that the chain was read from is not listed, so nothing is noted but the
numbers of arguments that are wrong.

## Main definitions

* `LevelTree.IsCut` — nothing stands behind a `RETURN` in a tree
* `LevelTree.core` — the listing of a tree from its first operator on

## Main results

* `LevelTree.reads_core` — the listing of a tree is read as the terms of the tree
* `Chain.read_listing_of_read` — the listing of a chain that was read is read as that chain
-/

namespace SignalScript

open Text

variable {locals : List Text}

namespace LevelTree

/-! ### Trees that end at a `RETURN` -/

/-- There is a `RETURN`, on the level or in a group. -/
def returns : LevelTree → Bool
  | done => false
  | atom _ _ _ more => more.returns
  | ret _ _ => true
  | group _ _ inner more => inner.returns || more.returns

/-- Nothing stands behind a group with a `RETURN`. -/
def IsCut : LevelTree → Prop
  | done => True
  | atom _ _ _ more => more.IsCut
  | ret _ _ => True
  | group _ _ inner more => inner.IsCut ∧ more.IsCut ∧ (inner.returns = true → more = done)

/-- How the reading of the listing ends. -/
def ending (tree : LevelTree) : Ending := if tree.returns then .returned false else .complete

/-- If a level returns, one of its terms is the `RETURN`. -/
theorem exists_ret_of_returns {tree : LevelTree} (h : tree.returns = true) (level last : Nat) :
    ∃ term ∈ tree.terms level last, term.factor = .ret := by
  induction tree generalizing level last with
  | done => cases h
  | atom negated operator a more ih =>
    obtain ⟨term, hterm, hret⟩ := ih h level last
    exact ⟨term, List.mem_cons_of_mem _ hterm, hret⟩
  | ret negated operator => exact ⟨_, List.mem_singleton_self _, rfl⟩
  | group negated operator inner more ihinner ihmore =>
    rcases (Bool.or_eq_true _ _).mp h with h | h
    · obtain ⟨term, hterm, hret⟩ := ihinner h (last + 1) (last + 1)
      exact ⟨term, List.mem_cons_of_mem _ (List.mem_append_left _ hterm), hret⟩
    · obtain ⟨term, hterm, hret⟩ := ihmore h level (last + 1 + inner.groups)
      exact ⟨term, List.mem_cons_of_mem _ (List.mem_append_right _ hterm), hret⟩

theorem eq_done_of_terms {tree : LevelTree} {level last : Nat} (h : tree.terms level last = []) :
    tree = .done := by
  cases tree with
  | done => rfl
  | _ => cases h

/-- If no term stands behind a `RETURN`, neither does one in the tree. -/
theorem isCut_of_pairwise {tree : LevelTree} {level last : Nat}
    (h : (tree.terms level last).Pairwise fun earlier _ => earlier.factor ≠ .ret) :
    tree.IsCut := by
  induction tree generalizing level last with
  | done => trivial
  | atom negated operator a more ih => exact ih (List.pairwise_cons.mp h).2
  | ret negated operator => trivial
  | group negated operator inner more ihinner ihmore =>
    obtain ⟨hinner, hmore, hacross⟩ := List.pairwise_append.mp (List.pairwise_cons.mp h).2
    refine ⟨ihinner hinner, ihmore hmore, fun hreturns => ?_⟩
    obtain ⟨term, hterm, hret⟩ := exists_ret_of_returns hreturns (last + 1) (last + 1)
    exact eq_done_of_terms (List.eq_nil_iff_forall_not_mem.mpr fun later hlater =>
      hacross term hterm later hlater hret)

/-! ### Listings of trees -/

/-- How a negation is listed. -/
def spelling (negated : Bool) : Written.Negation := if negated then .mark 0 else .absent

/-- The listing from the first operator on, with `gap` spaces behind that operator. -/
def core (locals : List Text) (gap : Nat) (tree : LevelTree) : Text :=
  match tree.first? with
  | none => []
  | some (negated, operator) =>
    Written.leadText (operator.map (·, gap)) ++
      ((spelling negated).text ++ tree.factorText locals)

section Texts

variable {tree : LevelTree} {isFirst negated : Bool} {operator : Option Operator}

/-- The core of a level is the operator and the negation of its first term and then its factor. -/
theorem core_eq (h : tree.first? = some (negated, operator)) (gap : Nat) :
    tree.core locals gap = Written.leadText (operator.map (·, gap)) ++
      ((spelling negated).text ++ tree.factorText locals) := by
  rw [core, h]

theorem text_spelling (negated : Bool) : (spelling negated).text = negationListing negated := by
  cases negated <;> rfl

theorem text_true (tree : LevelTree) : tree.text locals true = tree.core locals 0 := by
  cases hfirst : tree.first? with
  | none => rw [eq_done_of_first? hfirst]; rfl
  | some first =>
    rw [core_eq hfirst, text_spelling, text_eq hfirst]
    cases first.2 <;> rfl

variable (locals) in
/-- Behind another term, a space stands in front of the operator. -/
theorem exists_text_false (hled : tree.IsLed true) :
    ∃ gap, tree.text locals false = spaces gap ++ tree.core locals 1 := by
  cases hfirst : tree.first? with
  | none =>
    rw [eq_done_of_first? hfirst]
    exact ⟨0, rfl⟩
  | some first =>
    obtain ⟨op, hop⟩ := Option.ne_none_iff_exists'.mp (operator_ne_none hled hfirst)
    rw [core_eq hfirst, text_spelling, text_eq hfirst, hop]
    exact ⟨1, rfl⟩

/-- Nothing but an operator stands in front of a later term. -/
theorem startsBare_core (hled : tree.IsLed true) : startsBare (tree.core locals 1) = false := by
  cases hfirst : tree.first? with
  | none =>
    rw [eq_done_of_first? hfirst]
    rfl
  | some first =>
    obtain ⟨op, hop⟩ := Option.ne_none_iff_exists'.mp (operator_ne_none hled hfirst)
    rw [core_eq hfirst, hop]
    cases op <;> rfl

/-- The text of further terms without the blank in front is a level that begins with an operator. -/
theorem trimStart_text (hled : tree.IsLed true) :
    trimStart (tree.text locals false) = tree.core locals 1 := by
  obtain ⟨gap, htext⟩ := exists_text_false locals hled
  rw [htext, trimStart_append_of_blank fun _ => isBlank_of_mem_spaces,
    trimStart_of_startsBare (startsBare_core hled)]

variable (locals) in
theorem endsWord_text (hled : tree.IsLed true) : EndsWord (tree.text locals false) := by
  obtain ⟨gap, htext⟩ := exists_text_false locals hled
  rw [htext]
  exact EndsWord.spaces (endsWord_of_startsBare (startsBare_core hled)) gap

/-- Terms behind a tight text leave it tight. -/
theorem isTight_behind {front : Text} (hlocals : ∀ name ∈ locals, isIdentifier name = true)
    (hterms : tree.HasTerms locals) (hfront : IsTight front) :
    IsTight (front ++ tree.text locals isFirst) := by
  -- The blanks of an operator stand between two tight texts.
  have hlink {isFirst : Bool} {operator : Option Operator} {negated : Bool} {front text : Text}
      (hfront : IsTight front) (htext : IsTight text) :
      IsTight (front ++ (operatorListing isFirst operator ++
        (negationListing negated ++ text))) := by
    simpa using hfront.append htext (operatorListing isFirst operator ++ negationListing negated)
  induction tree generalizing isFirst front with
  | done => simpa [text] using hfront
  | atom negated operator a more ih =>
    have ha := Atom.isTight_listing hlocals (hterms a List.mem_cons_self).readsBack
    exact hlink hfront (ih (fun b hb => hterms b (List.mem_cons_of_mem _ hb)) ha)
  | ret negated operator => exact hlink hfront (by decide)
  | group negated operator inner more _ ihmore =>
    have hgroup : IsTight ('(' :: (inner.text locals true ++ [')']) ++ more.text locals false) :=
      ihmore (fun b hb => hterms b (List.mem_append_right _ hb)) (IsTight.brackets _)
    exact hlink hfront (by simpa using hgroup)

/-- What can be negated has no blanks at its ends. -/
theorem isTight_factorText (hlocals : ∀ name ∈ locals, isIdentifier name = true)
    (hterms : tree.HasTerms locals) (hfirst : tree.first? = some (negated, operator)) :
    IsTight (tree.factorText locals) := by
  cases tree with
  | done => cases hfirst
  | atom negated operator a more =>
    exact isTight_behind hlocals (fun b hb => hterms b (List.mem_cons_of_mem _ hb))
      (Atom.isTight_listing hlocals (hterms a List.mem_cons_self).readsBack)
  | ret negated operator =>
    have hreturn : IsTight "RETURN".toList := by decide
    exact hreturn
  | group negated operator inner more =>
    have hgroup : IsTight ('(' :: (inner.text locals true ++ [')']) ++ more.text locals false) :=
      isTight_behind hlocals (fun b hb => hterms b (List.mem_append_right _ hb))
        (IsTight.brackets _)
    simpa [factorText] using hgroup

/-- The core of a level has no blanks at its ends. -/
theorem trim_core (hlocals : ∀ name ∈ locals, isIdentifier name = true)
    (hterms : tree.HasTerms locals) (gap : Nat) :
    trim (tree.core locals gap) = tree.core locals gap := by
  cases hfirst : tree.first? with
  | none =>
    rw [eq_done_of_first? hfirst]
    rfl
  | some first =>
    rw [core_eq hfirst]
    exact (Written.isTight_link (isTight_factorText hlocals hterms hfirst) _ _).trim_eq

/-- The brackets of a level are balanced. -/
theorem isBalanced_text (hlocals : ∀ name ∈ locals, isIdentifier name = true)
    (hterms : tree.HasTerms locals) : IsBalanced (tree.text locals isFirst) := by
  have hmarks {isFirst negated : Bool} {operator : Option Operator} {text : Text}
      (htext : IsBalanced text) :
      IsBalanced (operatorListing isFirst operator ++ (negationListing negated ++ text)) := by
    have hoperator : IsBalanced (operatorListing isFirst operator) := by
      cases operator with
      | none => exact .of_not_mem List.not_mem_nil List.not_mem_nil
      | some op => cases isFirst <;> cases op <;> decide
    have hnegation : IsBalanced (negationListing negated) := by cases negated <;> decide
    exact hoperator.append (hnegation.append htext)
  induction tree generalizing isFirst with
  | done => exact .of_not_mem List.not_mem_nil List.not_mem_nil
  | atom negated operator a more ih =>
    exact hmarks ((Atom.isBalanced_listing hlocals (hterms a List.mem_cons_self).readsBack).append
      (ih fun b hb => hterms b (List.mem_cons_of_mem _ hb)))
  | ret negated operator => exact hmarks (by decide)
  | group negated operator inner more ihinner ihmore =>
    have hinner : IsBalanced (inner.text locals true) :=
      ihinner fun b hb => hterms b (List.mem_append_left _ hb)
    have hmore : IsBalanced (more.text locals false) :=
      ihmore fun b hb => hterms b (List.mem_append_right _ hb)
    have hgroup := hinner.enclose.append hmore
    rw [List.cons_append, List.append_assoc] at hgroup
    exact hmarks hgroup

end Texts

/-! ### Reading a tree -/

/-- The head of the first term is read from the core of a level. -/
theorem termHead_core (tree : LevelTree) {negated : Bool} {operator : Option Operator}
    (hfirst : tree.first? = some (negated, operator))
    (hstart : Written.StartsTerm (tree.factorText locals)) (gap : Nat) :
    termHead (tree.core locals gap) = ⟨operator, negated, tree.factorText locals⟩ := by
  have hoperator : (operator.map (·, gap)).map Prod.fst = operator := by cases operator <;> rfl
  have hnegated : (spelling negated).isPresent = negated := by cases negated <;> rfl
  rw [core_eq hfirst, Written.termHead_text hstart, hoperator, hnegated]

/-- The listing of a tree is read as the terms of the tree, and the numbers of arguments that are
wrong are noted. -/
theorem reads_core {tree : LevelTree} {led : Bool} {source : Text} {level last gap : Nat}
    (hlocals : AreNames locals) (hled : tree.IsLed led) (hcut : tree.IsCut)
    (hterms : tree.HasTerms locals) :
    Reads locals source level last (tree.core locals gap)
      ⟨tree.terms level last, last + tree.groups, tree.ending⟩
      (tree.atoms.flatMap Atom.mismatch) := by
  -- The induction is on the tree: each constructor is read by the rule of a run for it.
  induction tree generalizing led level last gap with
  | done => exact .done
  | atom negated operator a more ih =>
    have ha := hterms a List.mem_cons_self
    have htight := Atom.isTight_listing hlocals.isIdentifier ha.readsBack
    have hhead := termHead_core (.atom negated operator a more) rfl
      (ha.startsTerm_listing hlocals (endsWord_text locals hled.2)) gap
    -- The token ends in front of the next operator, with the space in front of that.
    obtain ⟨gap', hmore⟩ := exists_text_false locals hled.2
    have hsplit : splitToken 0 (a.listing locals ++ more.text locals false) =
        (a.listing locals ++ spaces gap', more.core locals 1) := by
      rw [hmore, ha.isRun_listing hlocals.isIdentifier, Written.isRun_spaces,
        splitToken_of_startsBare (startsBare_core hled.2), List.append_nil]
    have htrim : trim (a.listing locals ++ spaces gap') = a.listing locals :=
      trim_spaces htight 0 gap'
    have hopen : (a.listing locals ++ more.text locals false).head? ≠ some '(' := by
      obtain ⟨c, rest, hcons, hc⟩ := Atom.exists_listing_cons hlocals.isIdentifier ha.readsBack
      rw [hcons]
      intro hhead
      obtain rfl := Option.some.inj hhead
      cases hc
    refine .atom hhead hopen hsplit ?_ ?_ ?_ (ih hled.2 hcut fun b hb =>
      hterms b (List.mem_cons_of_mem _ hb))
    · rw [htrim]
      exact htight.ne_nil
    · rw [htrim]
      exact ha.listing_ne_return hlocals
    · rw [htrim]
      exact Atom.read_listing hlocals.isIdentifier ha.readsBack
  | ret negated operator =>
    have hstart : Written.StartsTerm (factorText locals (.ret negated operator)) :=
      ⟨⟨'R', _, rfl, rfl, rfl⟩, rfl⟩
    have hhead := termHead_core _ rfl hstart gap
    exact .ret hhead rfl rfl rfl
  | group negated operator inner more ihinner ihmore =>
    have hinnerTerms : inner.HasTerms locals := fun b hb => hterms b (List.mem_append_left _ hb)
    have hstart : Written.StartsTerm (factorText locals (.group negated operator inner more)) :=
      ⟨⟨'(', _, rfl, rfl, rfl⟩, rfl⟩
    have hhead := termHead_core _ rfl hstart gap
    have hgroup : enclosed? (factorText locals (.group negated operator inner more)) =
        some (inner.core locals 0, more.text locals false) := by
      rw [← text_true]
      exact enclosed?_of_isBalanced (isBalanced_text hlocals.isIdentifier hinnerTerms) _
    have hinner : Reads locals source (last + 1) (last + 1) (inner.core locals 0)
        ⟨inner.terms (last + 1) (last + 1), last + 1 + inner.groups, inner.ending⟩
        (inner.atoms.flatMap Atom.mismatch) := ihinner hled.2.1 hcut.1 hinnerTerms
    rw [← trim_core hlocals.isIdentifier hinnerTerms] at hinner
    have hgroups : last + (group negated operator inner more).groups =
        last + 1 + inner.groups + more.groups := by
      rw [groups]
      omega
    rw [hgroups, atoms, List.flatMap_append]
    cases hreturns : inner.returns with
    | false =>
      have hcomplete : inner.ending = .complete := by simp [ending, hreturns]
      have hend : (group negated operator inner more).ending = more.ending := by
        simp [ending, returns, hreturns]
      have hbehind : Reads locals source level (last + 1 + inner.groups) (more.core locals 1)
          ⟨more.terms level (last + 1 + inner.groups), last + 1 + inner.groups + more.groups,
            more.ending⟩ (more.atoms.flatMap Atom.mismatch) :=
        ihmore hled.2.2 hcut.2.1 fun b hb => hterms b (List.mem_append_right _ hb)
      rw [hcomplete] at hinner
      rw [← trimStart_text hled.2.2] at hbehind
      rw [hend]
      refine .group hhead hgroup hinner ?_ hbehind
      rw [trimStart_text hled.2.2, startsBare_core hled.2.2]
    | true =>
      -- Nothing stands behind the group, so nothing is left unread.
      obtain rfl := hcut.2.2 hreturns
      have hreturned : inner.ending = .returned false := by simp [ending, hreturns]
      have hend : (group negated operator inner done).ending = .returned false := by
        simp [ending, returns, hreturns]
      rw [hreturned] at hinner
      rw [hend, terms, terms, List.append_nil]
      exact .groupReturned hhead hgroup hinner rfl

/-- The listing of a tree is a text that spells the terms of the tree. -/
theorem read_text {tree : LevelTree} (hlocals : AreNames locals) (hled : tree.IsLed false)
    (hcut : tree.IsCut) (hterms : tree.HasTerms locals) :
    Chain.read locals (tree.text locals true) =
      ⟨some (tree.terms 0 0), tree.atoms.flatMap Atom.mismatch⟩ := by
  have hbalanced : IsBalanced (tree.text locals true) :=
    isBalanced_text hlocals.isIdentifier hterms
  have htext : trim (tree.text locals true) = tree.core locals 0 := by
    rw [text_true, trim_core hlocals.isIdentifier hterms]
  have hrun : Reads locals (tree.text locals true) 0 0 (tree.core locals 0)
      ⟨tree.terms 0 0, 0 + tree.groups, tree.ending⟩ (tree.atoms.flatMap Atom.mismatch) :=
    reads_core hlocals hled hcut hterms
  rw [Chain.read, if_neg (by simp [hbalanced.closed_eq]), htext, hrun.readLevel_eq]
  exact congrArg (Noted.mk _) (List.append_nil _)

end LevelTree

/-! ### Reading a listing -/

/-- What is noted about the number of arguments does not concern the structure. -/
theorem Atom.kind_of_mem_mismatch {atom : Atom} {cause : Cause} (h : cause ∈ atom.mismatch) :
    cause.kind ≠ .structural := by
  cases atom with
  | operand o => cases h
  | call c =>
    rw [mismatch, Call.mismatch] at h
    split at h
    · obtain rfl := List.mem_singleton.mp h
      intro hkind
      cases hkind
    · cases h

/-- The listing of a chain that was read is read as that chain, with its operators, negations,
levels and atoms, whatever was noted about the text that it was read from. Nothing is noted about
the structure of the listing. -/
theorem Chain.read_listing_of_read {chain : Chain} {source : Text} (hlocals : AreNames locals)
    (h : (Chain.read locals source).value = some chain) :
    (Chain.read locals (chain.listing locals 0)).value = some chain ∧
      ∀ cause ∈ (Chain.read locals (chain.listing locals 0)).notes, cause.kind ≠ .structural := by
  obtain ⟨tree, hled, rfl, hterms⟩ := Chain.exists_tree h
  obtain ⟨last, returned, hform⟩ := Chain.isLevel_read h
  rw [listing_terms,
    LevelTree.read_text hlocals hled (LevelTree.isCut_of_pairwise hform.pairwise_ret) hterms]
  refine ⟨rfl, fun cause hcause => ?_⟩
  obtain ⟨atom, -, hmismatch⟩ := List.mem_flatMap.mp hcause
  exact Atom.kind_of_mem_mismatch hmismatch

section Careless

/-- What is read from `carelessText`. -/
def carelessTree : LevelTree :=
  .atom true none (.operand (.slot 0))
    (.group false (some .times)
      (.atom false (some .minus) (.operand (.constant 0))
        (.atom true (some .plus) (.call ⟨.feature, []⟩) .done))
      (.group true (some .plus) (.ret false none) .done))

/-- A text with an unknown name, a call without its argument and more behind a `RETURN`. -/
def carelessText : Text := "NOT #X*(-UNKNOWN+ !SIG_FEATURE()) + !(RETURN + X) - STATE".toList

/-- What is read from the careless text. -/
theorem read_careless :
    (Chain.read ["X".toList] carelessText).value = some (carelessTree.terms 0 0) := by
  have hread : Option.bind (Chain.readWithin 60 ["X".toList] carelessText) Noted.value =
      some (carelessTree.terms 0 0) := by decide +kernel
  rw [Chain.readWithin_eq (by decide)] at hread
  exact hread

/-- Only what was read is listed, and it is read again. -/
theorem Chain.read_listing_of_read_careless : (Chain.read ["X".toList]
    "!X * (-0 + !SIG_FEATURE()) + !(RETURN)".toList).value = some (carelessTree.terms 0 0) := by
  have hlocals : AreNames ["X".toList] := by
    intro name hname
    rw [List.mem_singleton.mp hname]
    decide
  have hread := (Chain.read_listing_of_read hlocals read_careless).1
  rwa [listing_terms] at hread

end Careless

end SignalScript
