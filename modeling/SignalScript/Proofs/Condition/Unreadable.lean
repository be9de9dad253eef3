import SignalScript.Proofs.Condition.Bracket
import SignalScript.Proofs.Expression.Scope
import SignalScript.Proofs.Expression.WrittenAtom
import SignalScript.Proofs.Splitting

/-!
# Texts that no test reads in silence

A test is taken apart at blanks and signs until names and numbers are left. What no name and no
number holds, and no sign can take away, therefore ends up in a name that is unknown, and unknown
names are noted. A square bracket is of this kind, and so are `AND` and `OR` between blanks.

## Main definitions

* `Unreadable` — a property that passes from a text to what is made of it, and no known name has it
* `StandsIn` — a word between blanks, or at the ends of a text

## Main results

* `Unreadable.notes_test_ne_nil` — a test with such a property leaves a note
* `unreadable_openSquare`, `unreadable_standsIn` — square brackets, and words that are not declared
-/

namespace SignalScript

open Text

/-- The readers of a test take it apart at this character. -/
def isBreak (c : Char) : Bool := isBlank c || "!<>=#(),".toList.contains c

/-- A property of texts that passes to what the readers of a test make of a text, and that no known
name has. -/
structure Unreadable (locals : List Text) (P : Text → Prop) : Prop where
  not_nil : ¬ P []
  not_negation : ¬ P "NOT".toList
  cut : ∀ {front back : Text} {c : Char}, isBreak c = true → P (front ++ c :: back) →
    P front ∨ P back
  /-- The argument list of a call is read without its closing brackets. -/
  filter : ∀ {text : Text}, P text → P (text.filter fun c => c ≠ ')')
  unknown : ∀ {name : Text}, P name → Operand.known? locals name = none
  noFunction : ∀ {name : Text}, P name → Function.named? name = none

namespace Unreadable

variable {locals : List Text} {P : Text → Prop} {front text back : Text} {c : Char}

section Parts

variable (h : Unreadable locals P)
include h

/-- A character at which tokens break can be taken off the front. -/
theorem of_cons (hc : isBreak c = true) (htext : P (c :: text)) : P text := by
  have hcut : P ([] ++ c :: text) := htext
  exact (h.cut hc hcut).resolve_left h.not_nil

theorem of_append_left (hfront : ∀ c ∈ front, isBreak c = true) (htext : P (front ++ text)) :
    P text := by
  induction front with
  | nil => exact htext
  | cons c front ih =>
    obtain ⟨hc, hfront⟩ := List.forall_mem_cons.mp hfront
    exact ih hfront (h.of_cons hc htext)

theorem of_append_right (hback : ∀ c ∈ back, isBreak c = true) (htext : P (text ++ back)) :
    P text := by
  cases back with
  | nil => rwa [List.append_nil] at htext
  | cons c back =>
    obtain ⟨hc, hback⟩ := List.forall_mem_cons.mp hback
    -- The signs behind the text do not have the property on their own.
    refine (h.cut hc htext).resolve_right fun hsigns => h.not_nil ?_
    exact h.of_append_left hback (by rwa [List.append_nil])

/-- Blanks at the ends do not help. -/
theorem trim (htext : P text) : P (trim text) := by
  have hbreak {blanks : Text} (hblanks : ∀ c ∈ blanks, isBlank c = true) :
      ∀ c ∈ blanks, isBreak c = true := fun c hc => by rw [isBreak, hblanks c hc, Bool.true_or]
  obtain ⟨front, back, hfront, hback, heq⟩ := exists_pad text
  rw [heq] at htext
  exact h.of_append_right (hbreak hback) (h.of_append_left (hbreak hfront) htext)

theorem trimStart (htext : P text) : P (trimStart text) := by
  obtain ⟨front, hfront, heq⟩ := exists_append_trimStart text
  rw [heq] at htext
  exact h.of_append_left (fun c hc => by rw [isBreak, hfront c hc, Bool.true_or]) htext

/-- Neither does a negation in front. -/
theorem negation (htext : P text) : P (negation text).2 := by
  rw [Text.negation.eq_def]
  split
  · exact h.trimStart (h.of_cons rfl htext)
  · rename_i rest
    have hword : P ("NOT".toList ++ ' ' :: rest) := htext
    exact h.trimStart ((h.cut rfl hword).resolve_left h.not_negation)
  · exact htext

theorem dropLeading (htext : P text) : P (dropLeading '#' text) := by
  cases text with
  | nil => exact htext
  | cons c text =>
    rw [Text.dropLeading]
    split
    · rename_i hc
      obtain rfl := hc
      exact h.of_cons rfl htext
    · exact htext

/-- The first piece is what was passed on the way to the first comma. -/
theorem exists_mem_pieces_append (hfront : ',' ∉ front) (htext : P (front ++ text)) :
    ∃ piece ∈ pieces ',' (front ++ text), P piece := by
  induction text generalizing front with
  | nil =>
    rw [List.append_nil] at htext ⊢
    exact ⟨front, by rw [pieces_of_not_mem hfront]; exact List.mem_singleton_self _, htext⟩
  | cons c rest ih =>
    by_cases hc : c = ','
    · subst hc
      rw [pieces_append_cons hfront]
      rcases h.cut rfl htext with hpiece | hrest
      · exact ⟨front, List.mem_cons_self, hpiece⟩
      · obtain ⟨piece, hpiece, hP⟩ := @ih [] List.not_mem_nil hrest
        exact ⟨piece, List.mem_cons_of_mem _ hpiece, hP⟩
    · rw [List.append_cons] at htext ⊢
      exact ih (by simpa [hfront] using Ne.symm hc) htext

/-- If a text cannot be read, then one of its pieces between commas cannot. -/
theorem exists_mem_pieces (htext : P text) : ∃ piece ∈ pieces ',' text, P piece := by
  have hwhole : P ([] ++ text) := htext
  exact h.exists_mem_pieces_append List.not_mem_nil hwhole

/-- A comparator is made of signs. -/
theorem before_or_after {found : FoundComparator} (hfound : cutComparator? text = some found)
    (htext : P text) : P found.before ∨ P found.after := by
  -- The text is cut at the first sign of the comparator, and the second goes with what is behind.
  obtain ⟨c, sign, hc, hsign, rfl⟩ : ∃ c sign, isBreak c = true ∧
      (∀ c ∈ sign, isBreak c = true) ∧ text = found.before ++ c :: (sign ++ found.after) := by
    clear htext
    fun_induction cutComparator? text generalizing found with
    | case1 => cases hfound
    | case9 c rest _ _ _ _ _ _ _ ih =>
      obtain ⟨later, hlater, rfl⟩ := Option.map_eq_some_iff.mp hfound
      obtain ⟨d, sign, hd, hsign, hrest⟩ := ih hlater
      exact ⟨d, sign, hd, hsign, congrArg (c :: ·) hrest⟩
    | case3 | case5 | case7 =>
      cases hfound
      exact ⟨_, [], rfl, by simp, rfl⟩
    | _ =>
      cases hfound
      exact ⟨_, ['='], rfl, by simp [isBreak], rfl⟩
  exact (h.cut hc htext).imp_right (h.of_append_left hsign)

/-- Taking off brackets around the whole text does not help. -/
theorem stripBrackets (htext : P text) : P (stripBrackets text) := by
  fun_induction SignalScript.stripBrackets text with
  | case1 text inner henclosed ih =>
    rw [enclosed?_eq_some henclosed] at htext
    have hinner : P (inner ++ [')']) := h.of_cons rfl htext
    exact ih (h.trim (h.of_append_right (by simp [isBreak]) hinner))
  | case2 => exact htext

end Parts

section Readers

variable (h : Unreadable locals P)
include h

/-- Something is noted about an operand that cannot be read. -/
theorem notes_operand_ne_nil (htext : P text) : (Operand.read locals text).notes ≠ [] := by
  have hnone := h.unknown (h.trim (h.dropLeading htext))
  simp [Operand.read, hnone]

/-- The property is that of the name or that of an argument. -/
theorem notes_call_ne_nil (hopen : '(' ∈ text) (htext : P text) :
    (Call.read locals text).notes ≠ [] := by
  obtain ⟨before, rest, rfl, hbefore⟩ := List.eq_append_cons_of_mem hopen
  rw [Call.read, cut?_append_cons hbefore]
  simp only
  split
  · simp
  · rcases h.cut rfl htext with hname | hrest
    · simp [h.noFunction (h.trim hname)]
    · cases Function.named? (Text.trim before) with
      | none => simp
      | some function =>
        -- The list of arguments has the property, so it is not blank and one argument has it.
        have hinner := h.trim (h.filter hrest)
        obtain ⟨piece, hpiece, hP⟩ := h.exists_mem_pieces hinner
        have hargument : Text.trim piece ∈ Call.argumentTexts rest := by
          rw [Call.argumentTexts]
          split
          · rename_i hempty
            rw [List.isEmpty_iff.mp hempty] at hinner
            exact absurd hinner h.not_nil
          · exact List.mem_map_of_mem hpiece
        simp only [Noted.notes_bind, Noted.notes_mapM]
        refine List.append_ne_nil_of_left_ne_nil (fun hnil => ?_) _
        exact h.notes_operand_ne_nil (h.trim hP) (List.flatMap_eq_nil_iff.mp hnil _ hargument)

/-- Neither can an atom, whether it is read as a call or as an operand. -/
theorem notes_atom_ne_nil (htext : P text) : (Atom.read locals text).notes ≠ [] := by
  rw [Atom.read]
  split
  · rename_i hopen
    simpa using h.notes_call_ne_nil hopen htext
  · simpa using h.notes_operand_ne_nil htext

theorem notes_side_ne_nil (htext : P text) : (Side.read locals text).notes ≠ [] := by
  rw [Side.read]
  simp only
  split
  · simp
  · simpa using h.notes_atom_ne_nil (h.trim (h.negation (h.trim htext)))

/-- A test with such a property leaves a note. -/
theorem notes_test_ne_nil (htext : P text) : (Test.read locals text).notes ≠ [] := by
  rw [Test.read]
  split
  · simpa using h.notes_side_ne_nil htext
  · rename_i found hfound
    rcases h.before_or_after hfound htext with hbefore | hafter
    · simp [h.notes_side_ne_nil hbefore]
    · simp [h.notes_side_ne_nil (h.dropLeading (h.trim hafter))]

end Readers

end Unreadable

/-! ### Known names -/

section Names

variable {locals : List Text} {name : Text}

/-- The characters of names and numbers. -/
def isKnownChar (c : Char) : Bool := isNameChar c || c = '+' || c = '-'

theorem isBlank_of_isKnownChar {c : Char} (h : isKnownChar c = true) : isBlank c = false := by
  simp only [isKnownChar, Bool.or_eq_true, decide_eq_true_eq] at h
  rcases h with (h | rfl) | rfl
  · exact isBlank_of_isNameChar h
  · rfl
  · rfl

/-- The name of a function holds only characters of names. -/
theorem Function.isNameChar_of_named? {function : Function}
    (h : Function.named? name = some function) : ∀ c ∈ name, isNameChar c = true := by
  have hname : function.name.toList = name := by simpa using List.find?_some h
  rw [← hname]
  exact fun c => (isWord_of_isIdentifier (Written.isIdentifier_function function)).isNameChar

theorem Decimal.isDigit_of_readUp {highest total n : Int} {text : Text}
    (h : readUp highest total text = .ok n) : ∀ c ∈ text, c.isDigit = true := by
  induction text generalizing total with
  | nil => simp
  | cons c rest ih =>
    rw [readUp] at h
    split at h
    · cases h
    · rename_i hdigit
      split at h
      · cases h
      · exact List.forall_mem_cons.mpr ⟨isDigit_of_digit? hdigit, ih h⟩

/-- A number is written with digits, behind at most one sign. -/
theorem isKnownChar_of_readInt32? {value : Int32} (h : Decimal.readInt32? name = some value) :
    ∀ c ∈ name, isKnownChar c = true := by
  have hdigits {digits : Text} (hall : ∀ c ∈ digits, c.isDigit = true) :
      ∀ c ∈ digits, isKnownChar c = true := fun c hc => by
    rw [isKnownChar, isNameChar_of_isDigit (hall c hc)]
    rfl
  cases hread : Decimal.read (-2147483648) 2147483647 name with
  | error error =>
    rw [Decimal.readInt32?, Decimal.readInt32, hread] at h
    cases h
  | ok n =>
    rw [Decimal.read.eq_def] at hread
    split at hread
    · cases hread
    · cases hread
    · cases hread
    · exact List.forall_mem_cons.mpr ⟨rfl, hdigits (Decimal.isDigit_of_readUp hread)⟩
    · exact List.forall_mem_cons.mpr ⟨rfl, hdigits (Decimal.isDigit_of_readDown hread)⟩
    · exact hdigits (Decimal.isDigit_of_readUp hread)

/-- What is known is a number or a name. -/
theorem isKnownChar_of_known? (hlocals : ∀ name ∈ locals, isIdentifier name = true)
    {operand : Operand} (h : Operand.known? locals name = some operand) :
    ∀ c ∈ name, isKnownChar c = true := by
  -- In whichever table a name is found, it is one that an author can write.
  have hname (written : Written.Name [] locals) : ∀ c ∈ written.text, isKnownChar c = true :=
    fun c hc => by
      rw [isKnownChar, (isWord_of_isIdentifier written.isIdentifier_text).isNameChar hc]
      rfl
  rw [Operand.known?] at h
  split at h
  · rename_i hnumber
    exact isKnownChar_of_readInt32? hnumber
  · split at h
    · rename_i v hexternal
      obtain rfl : v.name.toList = name := by simpa using List.find?_some hexternal
      exact hname (.external v)
    · split at h
      · rename_i index hslot
        obtain ⟨hlt, hfound, -⟩ := List.findIdx?_eq_some_iff_getElem.mp hslot
        obtain rfl : locals[index] = name := by simpa using hfound
        exact hname (.slot ⟨index, hlt⟩ (hlocals _ (List.getElem_mem hlt)) List.not_mem_nil)
      · obtain ⟨⟨family, value⟩, hresolve, -⟩ := Option.map_eq_some_iff.mp h
        obtain ⟨found, -, hfound⟩ := List.exists_of_findSome?_eq_some hresolve
        obtain ⟨place, hplace, -⟩ := Option.map_eq_some_iff.mp hfound
        obtain ⟨member, hstem, hmember⟩ := Option.bind_eq_some_iff.mp hplace
        obtain ⟨hlt, hspelled, -⟩ := List.findIdx?_eq_some_iff_getElem.mp hmember
        obtain rfl : found.members[place].toList = member := by simpa using hspelled
        rw [dropStem?_eq_some hstem]
        exact hname (.constant found ⟨place, hlt⟩)

/-- A square bracket belongs to no name, and nothing takes it away. -/
theorem unreadable_openSquare (hlocals : ∀ name ∈ locals, isIdentifier name = true) :
    Unreadable locals fun text => '[' ∈ text where
  not_nil := List.not_mem_nil
  not_negation := by decide
  cut {_ _ c} hc h := by
    have hne : '[' ≠ c := by
      rintro rfl
      cases hc
    simpa [hne] using h
  filter h := List.mem_filter.mpr ⟨h, rfl⟩
  unknown h := by
    by_contra hne
    obtain ⟨operand, hknown⟩ := Option.ne_none_iff_exists'.mp hne
    exact absurd (isKnownChar_of_known? hlocals hknown _ h) (by decide)
  noFunction h := by
    by_contra hne
    obtain ⟨function, hnamed⟩ := Option.ne_none_iff_exists'.mp hne
    exact absurd (Function.isNameChar_of_named? hnamed _ h) (by decide)

end Names

/-! ### Words between blanks -/

/-- The word stands in the text, with blanks or nothing around it. -/
def StandsIn (word text : Text) : Prop :=
  ∃ front back, text = front ++ (word ++ back) ∧ (∀ c ∈ front.getLast?, isBlank c = true) ∧
    ∀ c ∈ back.head?, isBlank c = true

namespace StandsIn

variable {word text front back : Text} {c : Char}

/-- A word that stands in a text without blanks is the whole text. -/
theorem eq_of_not_blank (h : StandsIn word text) (htext : ∀ c ∈ text, isBlank c = false) :
    text = word := by
  obtain ⟨front, back, rfl, hfront, hback⟩ := h
  have hfree {c : Char} (hmem : c ∈ front ++ (word ++ back)) : ¬ isBlank c = true := by
    simp [htext c hmem]
  -- What stands next to the word would be blank.
  have hnone : front = [] := by
    by_contra hne
    exact hfree (List.mem_append_left _ (List.getLast_mem hne))
      (hfront _ (List.getLast?_eq_some_getLast hne))
  have hnone' : back = [] := by
    by_contra hne
    exact hfree (List.mem_append_right _ (List.mem_append_right _ (List.head_mem hne)))
      (hback _ (List.head?_eq_some_head hne))
  rw [hnone, hnone', List.nil_append, List.append_nil]

/-- A cut beside the word leaves it where it stands. -/
theorem cut (hc : c ∉ word) (h : StandsIn word (front ++ c :: back)) :
    StandsIn word front ∨ StandsIn word back := by
  obtain ⟨before, behind, heq, hbefore, hbehind⟩ := h
  -- The cut is in front of the word or behind it; what is left beside the word is shorter.
  rcases append_eq_append_cons heq.symm with ⟨rest, rfl, rfl⟩ | ⟨rest, rfl, hrest⟩
  · refine Or.inr ⟨rest, behind, rfl, fun d hd => hbefore d ?_, hbehind⟩
    rw [List.getLast?_append, List.getLast?_cons, Option.mem_def.mp hd]
    rfl
  · rcases append_eq_append_cons hrest with ⟨more, rfl, -⟩ | ⟨more, rfl, rfl⟩
    · exact absurd (List.mem_append_right _ List.mem_cons_self) hc
    · refine Or.inl ⟨before, more, rfl, hbefore, fun d hd => hbehind d ?_⟩
      rw [List.head?_append, Option.mem_def.mp hd]
      rfl

/-- Closing brackets are no blanks. -/
theorem filter (hword : ')' ∉ word) (h : StandsIn word text) :
    StandsIn word (text.filter fun c => c ≠ ')') := by
  have hkeep {d : Char} (hd : isBlank d = true) : decide (d ≠ ')') = true := by
    refine decide_eq_true ?_
    rintro rfl
    cases hd
  obtain ⟨front, back, rfl, hfront, hback⟩ := h
  refine ⟨front.filter (· ≠ ')'), back.filter (· ≠ ')'), ?_, ?_, ?_⟩
  · have hsame : word.filter (fun c => c ≠ ')') = word :=
      List.filter_eq_self.mpr fun c hc => decide_eq_true fun heq => hword (heq ▸ hc)
    rw [List.filter_append, List.filter_append, hsame]
  -- The blanks next to the word stay where they are.
  · rcases List.eq_nil_or_concat front with rfl | ⟨before, d, rfl⟩
    · exact hfront
    · rw [List.concat_eq_append] at hfront ⊢
      rw [List.filter_append, List.filter_singleton, hkeep (hfront d (by simp))]
      simpa using hfront
  · cases back with
    | nil => exact hback
    | cons d behind =>
      rw [List.filter_cons, if_pos (hkeep (hback d rfl))]
      exact hback

end StandsIn

/-- An unknown word stays on its own, and a name that it does not make up holds a blank. -/
theorem unreadable_standsIn {locals : List Text} {word : Text}
    (hlocals : ∀ name ∈ locals, isIdentifier name = true) (hword : IsWord word)
    (hnot : word ≠ "NOT".toList) (hknown : Operand.known? locals word = none)
    (hnamed : Function.named? word = none) : Unreadable locals (StandsIn word) where
  not_nil := by
    rintro ⟨front, back, h, -⟩
    exact hword.1 (List.append_eq_nil_iff.mp (List.append_eq_nil_iff.mp h.symm).2).1
  not_negation h := by
    have hnegation : IsWord "NOT".toList := by decide
    exact hnot (h.eq_of_not_blank fun c hc => isBlank_of_isNameChar (hnegation.isNameChar hc)).symm
  cut {_ _ c} hc h := by
    refine h.cut fun hmem => ?_
    -- A character that tokens break at is none of the word, so it does not cut the word in two.
    have hname := hword.isNameChar hmem
    simp only [isBreak, isBlank_of_isNameChar hname, Bool.false_or, List.contains_iff_mem] at hc
    have hsign := List.all_eq_true.mp
      (show "!<>=#(),".toList.all (fun d => !isNameChar d) = true from rfl) c hc
    rw [hname] at hsign
    cases hsign
  filter h := h.filter (hword.not_mem rfl)
  unknown {name} h := by
    by_contra hne
    obtain ⟨operand, hsome⟩ := Option.ne_none_iff_exists'.mp hne
    obtain rfl := h.eq_of_not_blank fun c hc => isBlank_of_isKnownChar
      (isKnownChar_of_known? hlocals hsome c hc)
    exact hne hknown
  noFunction {name} h := by
    by_contra hne
    obtain ⟨function, hsome⟩ := Option.ne_none_iff_exists'.mp hne
    obtain rfl := h.eq_of_not_blank fun c hc => isBlank_of_isNameChar
      (Function.isNameChar_of_named? hsome c hc)
    exact hne hnamed

end SignalScript
