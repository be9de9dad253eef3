import SignalScript.Proofs.Condition.Margins
import SignalScript.Proofs.Fuel.Condition

/-!
# Nothing of a condition is lost

A condition that is read without a note has a join for every separator of its text, one test more,
and a group for every compound, over all depths. The marks of lifted compounds stand in the text, so
this is promised only of texts without square brackets: a mark that the author has written is read
as one more copy of a compound.

## Main definitions

* `elementsOf` — the elements of a condition and of its groups, over all depths
* `Condition.joinCount`, `Condition.testCount`, `Condition.groupCount` — the numbers of elements
* `Condition.Covers` — the elements of a condition are those of a text

## Main results

* `Condition.covers_readList` — a condition without notes has the elements of its text
* `Condition.covers_read` — the same for the condition of an `IF`
* `Condition.exists_mark_unnoted` — a mark in the text is read as a copy of a compound
-/

namespace SignalScript

open Text

mutual

/-- An element of a condition, and the elements in it. -/
def ConditionItem.elements : ConditionItem → List ConditionItem
  | .test test => [.test test]
  | .join join => [.join join]
  | .negation => [.negation]
  | .group items => .group items :: elementsOf items

/-- The elements of a condition and of its groups, over all depths. -/
def elementsOf : List ConditionItem → List ConditionItem
  | [] => []
  | item :: rest => item.elements ++ elementsOf rest

end

namespace ConditionItem

/-- The element is a test. -/
def isTest : ConditionItem → Bool
  | .test _ => true
  | _ => false

/-- The element is an `AND` or an `OR`. -/
def isJoin : ConditionItem → Bool
  | .join _ => true
  | _ => false

/-- The element is a group, which a compound was lifted to. -/
def isGroup : ConditionItem → Bool
  | .group _ => true
  | _ => false

end ConditionItem

namespace Condition

/-- The number of elements of a kind, over all depths. -/
def count (kind : ConditionItem → Bool) (condition : Condition) : Nat :=
  (elementsOf condition).countP kind

/-- The number of tests, over all depths. -/
def testCount (condition : Condition) : Nat := condition.count ConditionItem.isTest

/-- The number of joins, over all depths. -/
def joinCount (condition : Condition) : Nat := condition.count ConditionItem.isJoin

/-- The number of groups, over all depths. -/
def groupCount (condition : Condition) : Nat := condition.count ConditionItem.isGroup

/-- The elements of the condition are those of the text. -/
structure Covers (condition : Condition) (text : Text) : Prop where
  joinCount_eq : condition.joinCount = separatorCount text
  testCount_eq : condition.testCount = separatorCount text + 1
  groupCount_eq : IsClosed text → condition.groupCount = compoundCount text

/-! ### Counting elements -/

section Counting

variable {kind : ConditionItem → Bool} {front back : Condition}

theorem elementsOf_append (front back : Condition) :
    elementsOf (front ++ back) = elementsOf front ++ elementsOf back := by
  induction front with
  | nil => rw [List.nil_append, elementsOf, List.nil_append]
  | cons item front ih => rw [List.cons_append, elementsOf, elementsOf, ih, List.append_assoc]

/-- Elements of a kind are counted part by part. -/
theorem count_append (kind : ConditionItem → Bool) (front back : Condition) :
    count kind (front ++ back) = count kind front + count kind back := by
  rw [count, elementsOf_append, List.countP_append]
  rfl

/-- A negation adds nothing to the other elements. -/
theorem count_negated (hkind : kind .negation = false) (negated : Bool) (item : ConditionItem) :
    count kind ((if negated then [ConditionItem.negation] else []) ++ [item]) =
      item.elements.countP kind := by
  have hitem : count kind [item] = item.elements.countP kind := by
    rw [count, elementsOf, elementsOf, List.append_nil]
  have hfront : count kind (if negated then [ConditionItem.negation] else []) = 0 := by
    cases negated with
    | true => simp [count, elementsOf, ConditionItem.elements, hkind]
    | false => simp [count, elementsOf]
  rw [count_append, hfront, hitem, Nat.zero_add]

/-- The elements of parts with joins between them are the joins and the elements of the parts. -/
theorem count_readLater {read : Text → Checked Condition} {size : Text → Nat} {joins : Nat}
    (hjoin : ∀ join, (if kind (.join join) then 1 else 0) = joins) {parts : List (Join × Text)}
    (h : ∀ part ∈ parts.map Prod.snd, count kind (read part).value = size part) :
    count kind (readLater read parts).value =
      parts.length * joins + ((parts.map Prod.snd).map size).sum := by
  induction parts with
  | nil => simp [readLater, count, elementsOf]
  | cons pair parts ih =>
    obtain ⟨join, part⟩ := pair
    obtain ⟨hpart, hparts⟩ := List.forall_mem_cons.mp h
    have hstep : (readLater read ((join, part) :: parts)).value =
        [.join join] ++ ((read part).value ++ (readLater read parts).value) := rfl
    have hfirst : count kind [.join join] = joins := by
      rw [← hjoin join]
      simp [count, elementsOf, ConditionItem.elements, List.countP_singleton]
    rw [hstep, count_append, count_append, hfirst, hpart, ih hparts, List.length_cons,
      List.map_cons, List.map_cons, List.sum_cons, Nat.add_one_mul]
    omega

end Counting

/-! ### Parts without notes -/

/-- How a part is read that leaves no note. -/
inductive ReadsPart (locals compounds : List Text) (part : Text) : Condition → Prop
  | group (negated : Bool) {number : Nat} {compound : Text}
    (hnumber : partNumber? part = some number) (hcompound : compounds[number]? = some compound)
    (hnotes : (readList locals compound).notes = []) :
    ReadsPart locals compounds part ((if negated then [ConditionItem.negation] else []) ++
      [.group (readList locals compound).value])
  | test (negated : Bool) (test : Test) (hpart : ∀ P, Unreadable locals P → ¬ P part) :
    ReadsPart locals compounds part
      ((if negated then [ConditionItem.negation] else []) ++ [.test test])

section Parts

variable {locals compounds : List Text} {text part : Text}

/-- A part whose reading notes nothing was read as what stands in it. -/
theorem readsPart_of_notes
    (h : (readPart locals (readCompound? locals compounds) part).notes = []) :
    ReadsPart locals compounds part
      (readPart locals (readCompound? locals compounds) part).value := by
  rw [readPart] at h ⊢
  simp only at h ⊢
  split at h
  · simp at h
  · rename_i hempty
    rw [if_neg hempty]
    split at h
    · rename_i group hgroup
      obtain ⟨number, hnumber, hfound⟩ := Option.bind_eq_some_iff.mp hgroup
      obtain ⟨compound, hcompound, rfl⟩ := Option.map_eq_some_iff.mp hfound
      simp only [Noted.value_bind, Noted.value_pure]
      exact .group _ hnumber hcompound (List.append_eq_nil_iff.mp h).1
    · rename_i hgroup
      simp only [Noted.value_bind, Noted.value_pure]
      -- What no name holds would have left a note, through all that is taken off the part.
      refine .test _ _ fun P hP hpart => ?_
      exact hP.notes_test_ne_nil (hP.stripBrackets (hP.negation (hP.trim hpart)))
        (List.append_eq_nil_iff.mp h).1

/-- If nothing is noted about further parts, nothing is noted about any of them. -/
theorem notes_readLater {read : Text → Checked Condition} {parts : List (Join × Text)}
    (h : (readLater read parts).notes = []) :
    ∀ part ∈ parts.map Prod.snd, (read part).notes = [] := by
  induction parts with
  | nil => exact List.forall_mem_nil _
  | cons pair parts ih =>
    obtain ⟨join, part⟩ := pair
    obtain ⟨hpart, hparts⟩ := List.append_eq_nil_iff.mp h
    exact List.forall_mem_cons.mpr ⟨hpart, ih (List.append_eq_nil_iff.mp hparts).1⟩

/-- A condition without notes has parts without notes. -/
theorem readsPart_of_mem_texts (h : (readList locals text).notes = [])
    (hpart : part ∈ (splitSeparators (liftCompounds text).text).texts) :
    ReadsPart locals (liftCompounds text).compounds part
      (readPart locals (readCompound? locals (liftCompounds text).compounds) part).value := by
  rw [readList_eq] at h
  obtain ⟨hfirst, hrest⟩ := List.append_eq_nil_iff.mp h
  have hlater := notes_readLater (List.append_eq_nil_iff.mp hrest).1
  refine readsPart_of_notes ?_
  rcases List.mem_cons.mp hpart with rfl | hpart
  · exact hfirst
  · exact hlater part hpart

/-- The elements of a condition are its joins and the elements of its parts. -/
theorem count_readList (kind : ConditionItem → Bool) (size : Text → Nat) {joins : Nat}
    (hjoin : ∀ join, (if kind (.join join) then 1 else 0) = joins)
    (h : ∀ part ∈ (splitSeparators (liftCompounds text).text).texts,
      count kind
        (readPart locals (readCompound? locals (liftCompounds text).compounds) part).value =
          size part) :
    count kind (readList locals text).value = separatorCount (liftCompounds text).text * joins +
      ((splitSeparators (liftCompounds text).text).texts.map size).sum := by
  obtain ⟨hfirst, hlater⟩ := List.forall_mem_cons.mp h
  rw [readList_eq]
  simp only [Noted.value_bind, Noted.value_pure]
  rw [count_append, hfirst, count_readLater hjoin hlater, Parts.texts, List.map_cons,
    List.sum_cons, separatorCount]
  omega

end Parts

/-! ### Compounds by number -/

section Weights

variable {inners parts : List Text} {part : Text}

/-- The size of the compound that a part stands for, if it stands for one. -/
def compoundSize (size : Text → Nat) (inners : List Text) (part : Text) : Nat :=
  ((partNumber? part).bind fun number => inners[number]?).elim 0 size

/-- Parts that stand for the compounds one by one have the sizes of all of them. -/
theorem sum_compoundSize (size : Text → Nat)
    (h : parts.filterMap partNumber? = List.range' 0 inners.length) :
    (parts.map (compoundSize size inners)).sum = (inners.map size).sum := by
  have hnumbers (parts : List Text) : (parts.map (compoundSize size inners)).sum =
      ((parts.filterMap partNumber?).map fun number => inners[number]?.elim 0 size).sum := by
    induction parts with
    | nil => rfl
    | cons part parts ih =>
      rw [List.map_cons, List.sum_cons, ih, compoundSize]
      cases hpart : partNumber? part with
      | none => rw [List.filterMap_cons_none hpart]; exact Nat.zero_add _
      | some number => rw [List.filterMap_cons_some hpart, List.map_cons, List.sum_cons]; rfl
  -- Numbers that run through all places find every compound once.
  rw [hnumbers, h]
  congr 1
  refine List.ext_getElem (by simp) fun place hplace hplace' => ?_
  have hlt : place < inners.length := by simpa using hplace'
  simp [hlt]

end Weights

/-! ### Reading -/

section Reading

variable {locals inners : List Text} {text part head : Text} {items : Condition}

/-- The word of a join is no operand, unless a local variable has its name. -/
theorem unreadable_joinWord (hlocals : ∀ name ∈ locals, isIdentifier name = true ∧ name ∉ joinWords)
    {word : Text} (hword : word ∈ joinWords) : Unreadable locals (StandsIn word) := by
  have hall : ∀ word ∈ joinWords, Decimal.readInt32? word = none ∧
      ExternalVariable.named? word = none ∧ Family.resolve? word = none ∧
      Function.named? word = none ∧ word ≠ "NOT".toList := by decide
  obtain ⟨hnumber, hexternal, hconstant, hnamed, hnot⟩ := hall word hword
  have hslot : slot? locals word = none := by
    refine List.findIdx?_eq_none_iff.mpr fun name hname => decide_eq_false ?_
    rintro rfl
    exact (hlocals name hname).2 hword
  refine unreadable_standsIn (fun name hname => (hlocals name hname).1)
    (isWord_of_mem_joinWords hword) hnot ?_ hnamed
  rw [Operand.known?, hnumber, hexternal, hslot, hconstant]
  rfl

/-- The elements of a part are those of the compound that it stands for, or one test. -/
theorem counts_of_readsPart {compounds : List Text}
    (hlocals : ∀ name ∈ locals, isIdentifier name = true) (hcompounds : compounds = inners.map trim)
    (h : ReadsPart locals compounds part items)
    (hinners : ∀ inner ∈ inners, (readList locals (trim inner)).notes = [] →
      Covers (readList locals (trim inner)).value inner)
    (hclosed : ∀ inner ∈ inners, IsClosed inner) :
    items.joinCount = compoundSize separatorCount inners part ∧
      items.testCount = compoundSize separatorCount inners part + 1 ∧
      items.groupCount = compoundSize (fun inner => compoundCount inner + 1) inners part := by
  cases h with
  | @group negated number compound hnumber hcompound hnotes =>
    rw [hcompounds, List.getElem?_map] at hcompound
    obtain ⟨inner, hinner, rfl⟩ := Option.map_eq_some_iff.mp hcompound
    have hmem := List.mem_of_getElem? hinner
    have hcovers := hinners inner hmem hnotes
    have hsize (size : Text → Nat) : compoundSize size inners part = size inner := by
      rw [compoundSize, hnumber, Option.bind_some, hinner]
      rfl
    -- The group itself counts where groups are counted, besides the elements in it.
    have hcount (kind : ConditionItem → Bool) (hkind : kind .negation = false) :
        count kind ((if negated then [ConditionItem.negation] else []) ++
            [.group (readList locals (trim inner)).value]) =
          count kind (readList locals (trim inner)).value +
            if kind (.group (readList locals (trim inner)).value) then 1 else 0 := by
      rw [count_negated hkind, ConditionItem.elements, List.countP_cons]
      rfl
    refine ⟨?_, ?_, ?_⟩
    · rw [joinCount, hcount _ rfl, hsize]
      exact hcovers.joinCount_eq
    · rw [testCount, hcount _ rfl, hsize]
      exact hcovers.testCount_eq
    · rw [groupCount, hcount _ rfl, hsize]
      exact congrArg (· + 1) (hcovers.groupCount_eq (hclosed inner hmem))
  | test negated test hpart =>
    have hnumber : partNumber? part = none :=
      partNumber?_eq_none (hpart _ (unreadable_openSquare hlocals))
    have hsize (size : Text → Nat) : compoundSize size inners part = 0 := by
      rw [compoundSize, hnumber]
      rfl
    rw [hsize, hsize]
    exact ⟨count_negated rfl negated _, count_negated rfl negated _, count_negated rfl negated _⟩

/-- A part that holds a square bracket stands for a compound. -/
theorem isSome_partNumber?_of_readsPart {compounds : List Text}
    (hlocals : ∀ name ∈ locals, isIdentifier name = true)
    (h : ReadsPart locals compounds part items) (hmem : '[' ∈ part) :
    (partNumber? part).isSome = true := by
  cases h with
  | group _ hnumber => rw [hnumber]; rfl
  | test _ _ hpart => exact absurd hmem (hpart _ (unreadable_openSquare hlocals))

/-- No part that is read without a note holds a joining word on its own. -/
theorem not_standsIn_of_readsPart {compounds : List Text}
    (hlocals : ∀ name ∈ locals, isIdentifier name = true ∧ name ∉ joinWords)
    (h : ReadsPart locals compounds part items) {word : Text} (hword : word ∈ joinWords) :
    ¬ StandsIn word part := by
  cases h with
  | group _ hnumber =>
    rintro ⟨front, back, rfl, -⟩
    have hall : ∀ word ∈ joinWords, word.all isNumberedChar = false := by decide
    have hnumbered : word.all isNumberedChar = true := List.all_eq_true.mpr fun c hc =>
      isNumberedChar_of_partNumber? hnumber (List.mem_append_right _ (List.mem_append_left _ hc))
    rw [hall word hword] at hnumbered
    cases hnumbered
  | test _ _ hpart => exact hpart _ (unreadable_joinWord hlocals hword)

/-- A condition that is read without a note has the elements of its text, if the text holds no
square bracket. -/
theorem covers_readList (hlocals : ∀ name ∈ locals, isIdentifier name = true ∧ name ∉ joinWords)
    (text : Text) (hopen : '[' ∉ text) (h : (readList locals (trim text)).notes = []) :
    Covers (readList locals (trim text)).value text := by
  have hnames := fun name hname => (hlocals name hname).1
  have hparts (part : Text)
      (hpart : part ∈ (splitSeparators (liftCompounds (trim text)).text).texts) :=
    readsPart_of_mem_texts h hpart
  obtain ⟨inners, hlifting⟩ := exists_isLifting_trim text fun part hpart word hword =>
    not_standsIn_of_readsPart hlocals (hparts part hpart) hword
  have hcompounds := hlifting.compounds_eq
  have hnumbers := filterMap_partNumber? 0 (trim text) (fun hmem => hopen (mem_of_mem_trim hmem))
    fun part hpart => isSome_partNumber?_of_readsPart hnames (hparts part hpart)
  rw [← liftCompounds, hcompounds, List.length_map] at hnumbers
  -- The compounds are shorter than the text, and the recursion is on them.
  have hcounts (part : Text)
      (hpart : part ∈ (splitSeparators (liftCompounds (trim text)).text).texts) :=
    counts_of_readsPart hnames hcompounds (hparts part hpart)
      (fun inner hinner hnotes =>
        have := hlifting.length_lt inner hinner
        have hplain : '[' ∉ inner := fun hmem => hopen ((hlifting.sublist inner hinner).subset hmem)
        covers_readList hlocals inner hplain hnotes)
      hlifting.isClosed
  have hlength : (splitSeparators (liftCompounds (trim text)).text).texts.length =
      separatorCount (liftCompounds (trim text)).text + 1 := by
    rw [Parts.texts, List.length_cons, List.length_map, separatorCount]
  refine ⟨?_, ?_, fun hclosed => ?_⟩
  · rw [joinCount, count_readList ConditionItem.isJoin _ (fun _ => rfl) fun part hpart =>
      (hcounts part hpart).1, sum_compoundSize _ hnumbers, hlifting.separatorCount_eq, Nat.mul_one]
  · rw [testCount, count_readList ConditionItem.isTest _ (fun _ => rfl) fun part hpart =>
      (hcounts part hpart).2.1, List.sum_map_add, sum_compoundSize _ hnumbers,
      hlifting.separatorCount_eq]
    simp [hlength]
    omega
  · rw [groupCount, count_readList ConditionItem.isGroup _ (fun _ => rfl) fun part hpart =>
      (hcounts part hpart).2.2, sum_compoundSize _ hnumbers, hlifting.compoundCount_eq hclosed,
      Nat.mul_zero, Nat.zero_add]
termination_by text.length

/-- The condition of an `IF` that is read without a note stands between brackets, and has the
elements of the text between them if that holds no square bracket. -/
theorem covers_read (hlocals : ∀ name ∈ locals, isIdentifier name = true ∧ name ∉ joinWords)
    (h : (read locals head).notes = []) :
    ∃ text, between? head = some text ∧ ('[' ∉ text → Covers (read locals head).value text) := by
  cases hbetween : between? head with
  | none => exact absurd h (notes_read_of_between? hbetween locals)
  | some text =>
    rw [read_of_between? hbetween] at h ⊢
    exact ⟨text, rfl, fun hopen => covers_readList hlocals text hopen h⟩

end Reading

/-- A compound in front of a comparison: one join for each of its two separators. -/
theorem covers_read_compound :
    Covers (read ["A".toList, "B".toList] "IF ((A AND B) OR A > 1)".toList).value
      "(A AND B) OR A > 1".toList := by
  have hread : readWithin 100 ["A".toList, "B".toList] "IF ((A AND B) OR A > 1)".toList =
      .done ⟨[.group [.test (.single ⟨false, .operand (.slot 0)⟩), .join .and,
        .test (.single ⟨false, .operand (.slot 1)⟩)], .join .or,
        .test (.compare ⟨false, .operand (.slot 0)⟩ .greater ⟨false, .operand (.constant 1)⟩)],
        []⟩ := rfl
  have hnotes := congrArg Noted.notes
    (Option.some.inj ((readWithin_eq (by decide)).symm.trans hread))
  obtain ⟨text, hbetween, hcovers⟩ := covers_read (by decide) hnotes
  obtain rfl := Option.some.inj hbetween
  exact hcovers (by decide)

/-- A mark that stands in the text is read as one more copy of the compound of that number, and no
note says so. -/
theorem exists_mark_unnoted : ¬ ∀ (locals : List Text) (head text : Text),
    (∀ name ∈ locals, isIdentifier name = true) → (read locals head).notes = [] →
    between? head = some text →
    (read locals head).value.joinCount = separatorCount text ∧
      (read locals head).value.testCount = separatorCount text + 1 ∧
      (read locals head).value.groupCount = compoundCount text := by
  intro h
  have hread : readWithin 100 ["A".toList, "B".toList] "IF ((A AND B) OR [0])".toList =
      .done ⟨[.group [.test (.single ⟨false, .operand (.slot 0)⟩), .join .and,
        .test (.single ⟨false, .operand (.slot 1)⟩)], .join .or,
        .group [.test (.single ⟨false, .operand (.slot 0)⟩), .join .and,
        .test (.single ⟨false, .operand (.slot 1)⟩)]], []⟩ := rfl
  have hsame := Option.some.inj ((readWithin_eq (by decide)).symm.trans hread)
  have hsplit : (splitSeparatorsWithin 100 "(A AND B) OR [0]".toList : Limited Cause Parts) =
      .done ⟨⟨"(A".toList, [(.and, "B)".toList), (.or, "[0]".toList)]⟩, []⟩ := rfl
  have henough := Nat.lt_of_le_of_lt (separatorCount_le_length "(A AND B) OR [0]".toList)
    (show _ < 100 by decide)
  have hparts := congrArg Noted.value (Option.some.inj
    ((splitSeparatorsWithin_eq henough).symm.trans hsplit))
  obtain ⟨hjoins, -, -⟩ := h ["A".toList, "B".toList] "IF ((A AND B) OR [0])".toList
    "(A AND B) OR [0]".toList (by decide) (congrArg Noted.notes hsame) rfl
  rw [hsame] at hjoins
  -- Two separators in the text, and three joins in what is read.
  have htwo : separatorCount "(A AND B) OR [0]".toList = 2 := congrArg (·.later.length) hparts
  rw [htwo] at hjoins
  exact absurd hjoins (by decide)

end Condition

end SignalScript
