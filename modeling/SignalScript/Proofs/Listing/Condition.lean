import SignalScript.Proofs.Condition.ConditionForm
import SignalScript.Proofs.Listing.Assignment

/-!
# Listings of conditions

The elements of a condition are listed side by side. What is negated shows no space behind the
exclamation mark, and the element `NOT` is a word of its own, so the negation of a side and that of
an element are told apart; and no element begins like a comparator, so a test ends where the next
element begins.

## Main definitions

* `ConditionItem.ReadsBack` — the operands and calls in an element read back
* `EndsItem` — a text that ends an element in front of it

## Main results

* `Condition.readsBack_read` — what is read from the line of an `IF` reads back
* `ConditionItem.listing_unique`, `Condition.listing_unique` — the element and the condition that a
  text begins with are determined
-/

namespace SignalScript

open Text

/-- All operands and calls in the test read back. -/
def Test.ReadsBack (locals : List Text) (test : Test) : Prop :=
  ∀ side ∈ test.sides, side.atom.ReadsBack locals

/-- All operands and calls in the element read back. -/
inductive ConditionItem.ReadsBack (locals : List Text) : ConditionItem → Prop
  | test {test : Test} (h : test.ReadsBack locals) : ConditionItem.ReadsBack locals (.test test)
  | join (join : Join) : ConditionItem.ReadsBack locals (.join join)
  | negation : ConditionItem.ReadsBack locals .negation
  | group {items : List ConditionItem} (h : ∀ item ∈ items, ConditionItem.ReadsBack locals item) :
    ConditionItem.ReadsBack locals (.group items)

variable {locals : List Text}

/-! ### Reading -/

section Reading

theorem Side.readsBack_read (locals : List Text) (text : Text) :
    (Side.read locals text).value.atom.ReadsBack locals := by
  let name := Text.trim (Text.negation (Text.trim text)).2
  change Atom.ReadsBack locals (if name.isEmpty then _ else _ : Checked Side).value.atom
  split
  · exact Operand.readsBack_zero
  · change Atom.ReadsBack locals ((Atom.read locals name).value.getD _)
    cases hatom : (Atom.read locals name).value with
    | none => exact Operand.readsBack_zero
    | some atom => exact Atom.readsBack_read hatom

/-- Every test that was read can be read back from its listing. -/
theorem Test.readsBack_read (locals : List Text) (text : Text) :
    (Test.read locals text).value.ReadsBack locals := by
  rw [Test.read]
  split
  · exact List.forall_mem_singleton.mpr (Side.readsBack_read locals text)
  · exact List.forall_mem_cons.mpr ⟨Side.readsBack_read locals _,
      List.forall_mem_singleton.mpr (Side.readsBack_read locals _)⟩

namespace Condition

/-- So can the elements of a part, if those of its compound can. -/
theorem readsBack_readPart {group : Nat → Option (Checked Condition)}
    (hgroup : ∀ number compound, group number = some compound →
      ∀ item ∈ compound.value, item.ReadsBack locals) (part : Text) :
    ∀ item ∈ (readPart locals group part).value, item.ReadsBack locals := by
  -- In front of what a part is read as stands a negation at most.
  have hfront {negated : Bool} {item : ConditionItem} (h : item.ReadsBack locals) :
      ∀ other ∈ (if negated then [ConditionItem.negation] else []) ++ [item],
        other.ReadsBack locals := by
    cases negated with
    | true => exact List.forall_mem_cons.mpr ⟨.negation, List.forall_mem_singleton.mpr h⟩
    | false => exact List.forall_mem_singleton.mpr h
  rw [readPart]
  simp only
  split
  · simp
  · split
    · rename_i compound hcompound
      obtain ⟨number, -, hnumber⟩ := Option.bind_eq_some_iff.mp hcompound
      exact hfront (.group (hgroup number compound hnumber))
    · exact hfront (.test (Test.readsBack_read locals _))

theorem readsBack_readLater {read : Text → Checked Condition}
    (hread : ∀ part, ∀ item ∈ (read part).value, item.ReadsBack locals)
    (parts : List (Join × Text)) :
    ∀ item ∈ (readLater read parts).value, item.ReadsBack locals := by
  induction parts with
  | nil => simp [readLater]
  | cons first parts ih =>
    obtain ⟨join, part⟩ := first
    exact List.forall_mem_cons.mpr ⟨.join join, List.forall_mem_append.mpr ⟨hread part, ih⟩⟩

/-- So can all elements of a condition that was read. -/
theorem readsBack_readList (locals : List Text) (text : Text) :
    ∀ item ∈ (readList locals text).value, item.ReadsBack locals := by
  rw [readList]
  have hpart : ∀ part, ∀ item ∈ (readPart locals (fun number =>
      if h : number < (liftCompounds text).compounds.length then
        some (readList locals (liftCompounds text).compounds[number])
      else none) part).value, item.ReadsBack locals := by
    apply readsBack_readPart
    intro number compound hcompound
    split at hcompound
    · obtain rfl := Option.some.inj hcompound
      exact readsBack_readList locals _
    · cases hcompound
  exact List.forall_mem_append.mpr ⟨hpart _, readsBack_readLater hpart _⟩
termination_by text.length
decreasing_by exact length_of_mem_liftCompounds (List.getElem_mem _)

/-- What is read from the line of an `IF` reads back. -/
theorem readsBack_read (locals : List Text) (head : Text) :
    ∀ item ∈ (read locals head).value, item.ReadsBack locals := by
  rw [read]
  split
  · split
    · simp
    · exact readsBack_readList locals _
  · simp

end Condition

end Reading

/-! ### Tests -/

section Tests

variable {rest rest' text : Text}

/-- Comparators have different symbols. -/
theorem Comparator.symbol_injective {comparator other : Comparator}
    (h : comparator.symbol.toList = other.symbol.toList) : comparator = other := by
  cases comparator <;> cases other <;> first | rfl | exact absurd h (by decide)

/-- The comparator that a text begins with is determined, up to the space behind it. -/
theorem Comparator.symbol_unique {comparator other : Comparator}
    (h : comparator.symbol.toList ++ ' ' :: rest = other.symbol.toList ++ ' ' :: rest') :
    comparator = other ∧ rest = rest' := by
  have hfree (comparator : Comparator) : ' ' ∉ comparator.symbol.toList := by
    cases comparator <;> decide
  have hcut := congrArg (cut? ' ') h
  rw [cut?_append_cons (hfree _), cut?_append_cons (hfree _)] at hcut
  obtain ⟨hsymbol, hbehind⟩ := Prod.mk.inj (Option.some.inj hcut)
  exact ⟨symbol_injective hsymbol, hbehind⟩

/-- The text begins as an element of a condition does. -/
def StartsItem (text : Text) : Prop :=
  (∃ c rest, text = c :: rest ∧ (isTokenChar c = true ∨ c = '(')) ∨
    ∃ c rest, text = '!' :: c :: rest ∧ isTokenChar c = true

/-- An element of a condition ends in front of the text. -/
structure EndsItem (text : Text) : Prop where
  endsAtom : EndsAtom text
  ne_comparator : ∀ (comparator : Comparator) rest,
    text ≠ ' ' :: (comparator.symbol.toList ++ ' ' :: rest)

theorem endsItem_close : EndsItem (')' :: rest) :=
  ⟨endsAtom_cons rfl (by decide), fun _ _ heq => nomatch (List.cons.inj heq).1⟩

theorem StartsItem.ne_close (h : StartsItem text) (rest : Text) : text ≠ ')' :: rest := by
  rintro rfl
  rcases h with ⟨c, behind, heq, hc⟩ | ⟨c, behind, heq, -⟩
  · obtain ⟨rfl, -⟩ := List.cons.inj heq
    rcases hc with hc | hc <;> cases hc
  · exact nomatch (List.cons.inj heq).1

/-- Behind a space an element does not go on as a test does. -/
theorem StartsItem.endsItem (h : StartsItem text) : EndsItem (' ' :: text) := by
  refine ⟨endsAtom_cons rfl (by decide), fun comparator rest heq => ?_⟩
  obtain rfl := (List.cons.inj heq).2
  rcases h with ⟨c, behind, heq, hc⟩ | ⟨c, behind, heq, hc⟩
  · cases comparator <;> obtain ⟨rfl, -⟩ := List.cons.inj heq <;>
      rcases hc with hc | hc <;> cases hc
  · cases comparator with
    | unequal =>
      obtain ⟨rfl, -⟩ := List.cons.inj (List.cons.inj heq).2
      cases hc
    | _ => exact nomatch (List.cons.inj heq).1

theorem Side.listing_append (side : Side) (rest : Text) :
    side.listing locals ++ rest =
      negationListing side.negated ++ (side.atom.listing locals ++ rest) :=
  List.append_assoc _ _ _

/-- The side of a test that a text begins with is determined. -/
theorem Side.listing_unique {side other : Side} (hlocals : AreListable locals)
    (h : side.atom.ReadsBack locals) (hother : other.atom.ReadsBack locals) (hrest : EndsAtom rest)
    (hrest' : EndsAtom rest')
    (hlisting : side.listing locals ++ rest = other.listing locals ++ rest') :
    side = other ∧ rest = rest' := by
  rw [listing_append, listing_append] at hlisting
  obtain ⟨hnegated, hbehind⟩ := negationListing_unique (Atom.listing_ne_cons hlocals h rfl _)
    (Atom.listing_ne_cons hlocals hother rfl _) hlisting
  obtain ⟨hatom, hsame⟩ := Atom.listing_unique hlocals h hother hrest hrest' hbehind
  cases side
  cases other
  exact ⟨congrArg₂ Side.mk hnegated hatom, hsame⟩

theorem Side.startsItem {side : Side} (hlocals : AreListable locals)
    (h : side.atom.ReadsBack locals) (rest : Text) : StartsItem (side.listing locals ++ rest) := by
  obtain ⟨c, text, hlisting, hc⟩ := Atom.exists_listing_cons hlocals.isIdentifier h
  rw [listing_append, hlisting]
  cases side.negated with
  | true => exact .inr ⟨c, text ++ rest, rfl, hc⟩
  | false => exact .inl ⟨c, text ++ rest, rfl, .inl hc⟩

/-- No side of a test is listed as one of the words of a listing. -/
theorem Side.listing_ne_word {side : Side} {word : Text} (hlocals : AreListable locals)
    (h : side.atom.ReadsBack locals) (hword : word ∈ listingWords) (hrest : EndsAtom rest)
    (hrest' : EndsAtom rest') : side.listing locals ++ rest ≠ word ++ rest' := by
  rw [listing_append]
  cases side.negated with
  | true =>
    have hmark : ∀ word ∈ listingWords, word.head? ≠ some '!' ∧ word ≠ [] := by decide
    obtain ⟨hhead, hne⟩ := hmark word hword
    obtain ⟨c, text, rfl⟩ := List.exists_cons_of_ne_nil hne
    intro heq
    exact hhead (congrArg some (List.cons.inj heq).1.symm)
  | false => exact Atom.listing_ne_word hlocals h hword hrest hrest'

theorem Test.compare_append (left : Side) (comparator : Comparator) (right : Side) (rest : Text) :
    (Test.compare left comparator right).listing locals ++ rest = left.listing locals ++
      ' ' :: (comparator.symbol.toList ++ ' ' :: (right.listing locals ++ rest)) := by
  simp [Test.listing]

/-- A test is listed with a side in front, and an operand or call ends there. -/
theorem Test.exists_side {test : Test} (h : test.ReadsBack locals) (hrest : EndsAtom rest) :
    ∃ (side : Side) (behind : Text), side.atom.ReadsBack locals ∧ EndsAtom behind ∧
      test.listing locals ++ rest = side.listing locals ++ behind := by
  cases test with
  | single side => exact ⟨side, rest, h side List.mem_cons_self, hrest, rfl⟩
  | compare left comparator right =>
    exact ⟨left, _, h left List.mem_cons_self, endsAtom_cons rfl (by decide),
      compare_append left comparator right rest⟩

/-- No test is listed as one of the words of a listing. -/
theorem Test.listing_ne_word {test : Test} {word : Text} (hlocals : AreListable locals)
    (h : test.ReadsBack locals) (hword : word ∈ listingWords) (hrest : EndsItem rest)
    (hrest' : EndsItem rest') : test.listing locals ++ rest ≠ word ++ rest' := by
  obtain ⟨side, behind, hside, hends, hlisting⟩ := exists_side h hrest.endsAtom
  rw [hlisting]
  exact Side.listing_ne_word hlocals hside hword hends hrest'.endsAtom

/-- A test does not begin with a bracket. -/
theorem Test.listing_ne_open {test : Test} (hlocals : AreListable locals)
    (h : test.ReadsBack locals) (hrest : EndsItem rest) :
    test.listing locals ++ rest ≠ '(' :: text := by
  obtain ⟨side, behind, hside, -, hlisting⟩ := exists_side h hrest.endsAtom
  rw [hlisting, Side.listing_append]
  cases side.negated with
  | true => exact fun heq => nomatch (List.cons.inj heq).1
  | false => exact Atom.listing_ne_cons hlocals hside rfl behind text

/-- The test that a text begins with is determined. -/
theorem Test.listing_unique {test other : Test} (hlocals : AreListable locals)
    (h : test.ReadsBack locals) (hother : other.ReadsBack locals) (hrest : EndsItem rest)
    (hrest' : EndsItem rest')
    (hlisting : test.listing locals ++ rest = other.listing locals ++ rest') :
    test = other ∧ rest = rest' := by
  have hspace {text : Text} : EndsAtom (' ' :: text) := endsAtom_cons rfl (by decide)
  match test, other with
  | .single side, .single side' =>
    obtain ⟨rfl, hsame⟩ := Side.listing_unique hlocals (h _ List.mem_cons_self)
      (hother _ List.mem_cons_self) hrest.endsAtom hrest'.endsAtom hlisting
    exact ⟨rfl, hsame⟩
  | .single side, .compare left comparator right =>
    rw [compare_append] at hlisting
    obtain ⟨-, hsame⟩ := Side.listing_unique hlocals (h _ List.mem_cons_self)
      (hother _ List.mem_cons_self) hrest.endsAtom hspace hlisting
    -- Behind a single side stands no comparator.
    exact absurd hsame (hrest.ne_comparator comparator _)
  | .compare left comparator right, .single side =>
    rw [compare_append] at hlisting
    obtain ⟨-, hsame⟩ := Side.listing_unique hlocals (h _ List.mem_cons_self)
      (hother _ List.mem_cons_self) hspace hrest'.endsAtom hlisting
    exact absurd hsame.symm (hrest'.ne_comparator comparator _)
  | .compare left comparator right, .compare left' comparator' right' =>
    rw [compare_append, compare_append] at hlisting
    obtain ⟨rfl, hbehind⟩ := Side.listing_unique hlocals (h _ List.mem_cons_self)
      (hother _ List.mem_cons_self) hspace hspace hlisting
    obtain ⟨rfl, hright⟩ := Comparator.symbol_unique (List.cons.inj hbehind).2
    obtain ⟨rfl, hsame⟩ := Side.listing_unique hlocals
      (h right (List.mem_cons_of_mem _ List.mem_cons_self))
      (hother right' (List.mem_cons_of_mem _ List.mem_cons_self)) hrest.endsAtom hrest'.endsAtom
      hright
    exact ⟨rfl, hsame⟩

end Tests

/-! ### Elements -/

section Items

variable {item other : ConditionItem} {items others : List ConditionItem} {rest rest' : Text}

theorem listItems_eq_map (items : List ConditionItem) :
    listItems locals items = items.map (ConditionItem.listing locals) := by
  induction items with
  | nil => rfl
  | cons item items ih => rw [listItems, ih, List.map_cons]

/-- A group is listed in brackets. -/
theorem ConditionItem.group_append (items : List ConditionItem) (rest : Text) :
    (ConditionItem.group items).listing locals ++ rest =
      '(' :: (Condition.listing locals items ++ ')' :: rest) := by
  simp [ConditionItem.listing, Condition.listing]

/-- A join is listed as one of the words that no operand is listed as. -/
theorem Join.listing_mem (join : Join) : join.listing ∈ listingWords := by
  cases join <;> decide

/-- The listing of an element begins as an element can. -/
theorem ConditionItem.startsItem (hlocals : AreListable locals) (h : item.ReadsBack locals)
    (rest : Text) : StartsItem (item.listing locals ++ rest) := by
  cases h with
  | @test test h =>
    rw [ConditionItem.listing]
    cases test with
    | single side => exact Side.startsItem hlocals (h side List.mem_cons_self) rest
    | compare left comparator right =>
      rw [Test.compare_append]
      exact Side.startsItem hlocals (h left List.mem_cons_self) _
  | join join => cases join <;> exact .inl ⟨_, _, rfl, .inl rfl⟩
  | negation => exact .inl ⟨_, _, rfl, .inl rfl⟩
  | group h =>
    rw [group_append]
    exact .inl ⟨_, _, rfl, .inr rfl⟩

/-- If the elements of a condition are determined by their listings, so is the condition, up to the
bracket that closes it. -/
theorem listItems_unique (hlocals : AreListable locals) (h : ∀ item ∈ items, item.ReadsBack locals)
    (hothers : ∀ item ∈ others, item.ReadsBack locals)
    (heach : ∀ a ∈ items, ∀ b ∈ others, ∀ rest rest', EndsItem rest → EndsItem rest' →
      a.listing locals ++ rest = b.listing locals ++ rest' → a = b ∧ rest = rest')
    (hlisting : Condition.listing locals items ++ ')' :: rest =
      Condition.listing locals others ++ ')' :: rest') : items = others ∧ rest = rest' := by
  have hstarts (item : ConditionItem) (hitem : item ∈ items ∨ item ∈ others) (rest : Text) :
      StartsItem (item.listing locals ++ rest) :=
    ConditionItem.startsItem hlocals (hitem.elim (h item) (hothers item)) rest
  rw [Condition.listing, Condition.listing, listItems_eq_map, listItems_eq_map] at hlisting
  exact joinedBy_unique (by decide) heach (fun _ => endsItem_close)
    (fun item hitem rest => (hstarts item hitem rest).endsItem)
    (fun item hitem text rest => (hstarts item hitem text).ne_close rest) hlisting

/-- The element that a text begins with is determined. -/
theorem ConditionItem.listing_unique (hlocals : AreListable locals) (h : item.ReadsBack locals)
    (hother : other.ReadsBack locals) (hrest : EndsItem rest) (hrest' : EndsItem rest')
    (hlisting : item.listing locals ++ rest = other.listing locals ++ rest') :
    item = other ∧ rest = rest' := by
  have hmem : "NOT".toList ∈ listingWords := by decide
  -- Tests are no words of a listing and begin with no bracket; words differ in their first letter.
  induction h generalizing other rest rest' with
  | test h =>
    cases hother with
    | test hother =>
      obtain ⟨rfl, hsame⟩ := Test.listing_unique hlocals h hother hrest hrest' hlisting
      exact ⟨rfl, hsame⟩
    | join join =>
      exact absurd hlisting (Test.listing_ne_word hlocals h join.listing_mem hrest hrest')
    | negation => exact absurd hlisting (Test.listing_ne_word hlocals h hmem hrest hrest')
    | group hitems =>
      rw [group_append] at hlisting
      exact absurd hlisting (Test.listing_ne_open hlocals h hrest)
  | join join =>
    cases hother with
    | test hother =>
      exact absurd hlisting.symm (Test.listing_ne_word hlocals hother join.listing_mem hrest' hrest)
    | join join' =>
      cases join <;> cases join'
      · exact ⟨rfl, List.append_cancel_left hlisting⟩
      · exact nomatch (List.cons.inj hlisting).1
      · exact nomatch (List.cons.inj hlisting).1
      · exact ⟨rfl, List.append_cancel_left hlisting⟩
    | negation => cases join <;> exact nomatch (List.cons.inj hlisting).1
    | group hitems => cases join <;> exact nomatch (List.cons.inj hlisting).1
  | negation =>
    cases hother with
    | test hother =>
      exact absurd hlisting.symm (Test.listing_ne_word hlocals hother hmem hrest' hrest)
    | join join => cases join <;> exact nomatch (List.cons.inj hlisting).1
    | negation => exact ⟨rfl, List.append_cancel_left hlisting⟩
    | group hitems => exact nomatch (List.cons.inj hlisting).1
  | @group items hitems ih =>
    rw [group_append] at hlisting
    cases hother with
    | test hother => exact absurd hlisting.symm (Test.listing_ne_open hlocals hother hrest')
    | join join => cases join <;> exact nomatch (List.cons.inj hlisting).1
    | negation => exact nomatch (List.cons.inj hlisting).1
    | @group others hothers =>
      rw [group_append] at hlisting
      obtain ⟨rfl, hsame⟩ := listItems_unique hlocals hitems hothers
        (fun a ha b hb _ _ hrest hrest' => ih a ha (hothers b hb) hrest hrest')
        (List.cons.inj hlisting).2
      exact ⟨rfl, hsame⟩

/-- The condition that a text begins with is determined, up to the bracket that closes it. -/
theorem Condition.listing_unique (hlocals : AreListable locals)
    (h : ∀ item ∈ items, item.ReadsBack locals) (hothers : ∀ item ∈ others, item.ReadsBack locals)
    (hlisting : Condition.listing locals items ++ ')' :: rest =
      Condition.listing locals others ++ ')' :: rest') : items = others ∧ rest = rest' :=
  listItems_unique hlocals h hothers
    (fun a ha b hb _ _ hrest hrest' => ConditionItem.listing_unique hlocals (h a ha) (hothers b hb)
      hrest hrest') hlisting

theorem Test.isLineChar_listing {test : Test} (hlocals : AreListable locals)
    (h : test.ReadsBack locals) : ∀ c ∈ test.listing locals, isLineChar c = true := by
  have hside {side : Side} (h : side.atom.ReadsBack locals) :
      ∀ c ∈ side.listing locals, isLineChar c = true := fun c hc =>
    isLineChar_of_isListed (List.forall_mem_append.mpr
      ⟨isListed_negationListing side.negated, Atom.isListed_listing hlocals h⟩ c hc)
  cases test with
  | single side => exact hside (h side List.mem_cons_self)
  | compare left comparator right =>
    have hright := hside (h right (List.mem_cons_of_mem _ List.mem_cons_self))
    have hsymbol : ∀ c ∈ ' ' :: comparator.symbol.toList, isLineChar c = true := by
      cases comparator <;> exact List.all_eq_true.mp rfl
    exact List.forall_mem_append.mpr ⟨List.forall_mem_append.mpr
      ⟨hside (h left List.mem_cons_self), hsymbol⟩, List.forall_mem_cons.mpr ⟨rfl, hright⟩⟩

theorem isLineChar_listItems (h : ∀ item ∈ items, ∀ c ∈ item.listing locals, isLineChar c = true) :
    ∀ c ∈ Condition.listing locals items, isLineChar c = true := by
  have hspace : ∀ c ∈ [' '], isLineChar c = true := List.all_eq_true.mp rfl
  rw [Condition.listing, listItems_eq_map]
  exact forall_mem_joinedBy hspace (List.forall_mem_map.mpr h)

theorem ConditionItem.isLineChar_listing (hlocals : AreListable locals)
    (h : item.ReadsBack locals) : ∀ c ∈ item.listing locals, isLineChar c = true := by
  induction h with
  | test h => exact Test.isLineChar_listing hlocals h
  | join join => cases join <;> exact List.all_eq_true.mp rfl
  | negation => exact List.all_eq_true.mp rfl
  | group _ ih =>
    exact List.forall_mem_cons.mpr ⟨rfl, List.forall_mem_append.mpr
      ⟨isLineChar_listItems ih, List.all_eq_true.mp rfl⟩⟩

/-- A condition that was read is listed on one line. -/
theorem Condition.isLineChar_listing (hlocals : AreListable locals)
    (h : ∀ item ∈ items, item.ReadsBack locals) :
    ∀ c ∈ Condition.listing locals items, isLineChar c = true :=
  isLineChar_listItems fun item hitem => ConditionItem.isLineChar_listing hlocals (h item hitem)

end Items

end SignalScript
