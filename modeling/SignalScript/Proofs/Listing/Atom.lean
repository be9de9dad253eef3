import SignalScript.Listing
import SignalScript.Proofs.Expression.Scope
import SignalScript.Proofs.Listing.Token
import SignalScript.Proofs.Text.Decimal

/-!
# Listings of operands and calls

An operand is listed by a name or a number that would be read as the same operand, so no two
operands have the same listing. A call is its name with brackets, which no operand has behind it.

## Main definitions

* `AreListable` — names of local variables that a listing can be read back with
* `Operand.ReadsBack`, `Atom.ReadsBack` — the listing stands for what is listed

## Main results

* `Operand.readsBack_read`, `Atom.readsBack_read` — all that is read from a text reads back
* `Atom.listing_unique` — the atom that a listing begins with is determined
-/

namespace SignalScript

open Text

/-- The words that mean something of their own in a listing. -/
def listingWords : List Text := ["RETURN".toList, "NOT".toList, "AND".toList, "OR".toList]

/-- The names can be told apart from all else in a listing. -/
def AreListable (locals : List Text) : Prop :=
  ∀ name ∈ locals, isIdentifier name = true ∧ name ∉ listingWords

theorem AreListable.isIdentifier {locals : List Text} (h : AreListable locals) :
    ∀ name ∈ locals, isIdentifier name = true := fun name hname => (h name hname).1

theorem AreListable.isWord {locals : List Text} {name : Text} (h : AreListable locals)
    (hname : name ∈ locals) : IsWord name :=
  isWord_of_isIdentifier (h.isIdentifier name hname)

/-- The listing of the operand stands for it. -/
def Operand.ReadsBack (locals : List Text) (o : Operand) : Prop :=
  known? locals (o.listing locals) = some o

/-- The arguments of the call read back. -/
def Call.ReadsBack (locals : List Text) (call : Call) : Prop :=
  ∀ argument ∈ call.arguments, argument.ReadsBack locals

/-- The operands of the atom read back. -/
def Atom.ReadsBack (locals : List Text) : Atom → Prop
  | .operand o => o.ReadsBack locals
  | .call c => c.ReadsBack locals

variable {locals : List Text}

/-! ### What is read -/

section Reading

variable {name text : Text}

/-- The slot that a name leads to has this name. -/
theorem slotName_of_slot? {index : Nat} (h : slot? locals name = some index) :
    slotName locals index = name := by
  obtain ⟨hlt, hname, -⟩ := List.findIdx?_eq_some_iff_getElem.mp h
  rw [slotName, List.getElem?_eq_getElem hlt]
  simpa using hname

/-- The name of a member is the name that stands for it. -/
theorem Family.name_of_resolve? {family : Family} {value : Int32}
    (h : resolve? name = some (family, value)) :
    ∃ member, family.memberName? value = some member ∧
      family.stem.toList ++ member.toList = name := by
  obtain ⟨found, -, hfound⟩ := List.exists_of_findSome?_eq_some h
  obtain ⟨place, hplace, heq⟩ := Option.map_eq_some_iff.mp hfound
  obtain ⟨rfl, rfl⟩ := Prod.mk.inj heq
  obtain ⟨behind, hstem, hmember⟩ := Option.bind_eq_some_iff.mp hplace
  obtain ⟨hlt, hname, -⟩ := List.findIdx?_eq_some_iff_getElem.mp hmember
  have hvalue : found.memberName? (Int32.ofNat place) = some found.members[place] := by
    have hall : ∀ place, (h : place < found.members.length) →
        found.memberName? (Int32.ofNat place) = some found.members[place] := by
      cases found <;> decide
    exact hall place hlt
  refine ⟨_, hvalue, ?_⟩
  rw [Text.dropStem?_eq_some hstem]
  congr 1
  simpa using hname

/-- What a name stands for is listed by a name that stands for it. -/
theorem Operand.readsBack_known? {o : Operand} (h : known? locals name = some o) :
    o.ReadsBack locals := by
  have hsame := h
  unfold known? at h
  split at h
  · obtain rfl := Option.some.inj h
    rw [ReadsBack, listing, known?, Decimal.readInt32?_write]
  · split at h
    · rename_i v hv
      obtain rfl := Option.some.inj h
      have hnumber : Decimal.readInt32? v.name.toList = none := by cases v <;> rfl
      rw [ReadsBack, listing, known?, hnumber, ExternalVariable.named?_name]
    · split at h
      · rename_i hslot
        obtain rfl := Option.some.inj h
        rwa [ReadsBack, listing, slotName_of_slot? hslot]
      · obtain ⟨⟨family, value⟩, hresolve, rfl⟩ := Option.map_eq_some_iff.mp h
        obtain ⟨member, hmember, hname⟩ := Family.name_of_resolve? hresolve
        have hlisting : (Operand.named family value).listing locals = name := by
          rw [listing, hmember]
          exact hname
        rwa [ReadsBack, hlisting]

theorem Operand.readsBack_zero : (Operand.constant 0).ReadsBack locals := by
  rw [ReadsBack, listing, known?, Decimal.readInt32?_write]

/-- Every operand that was read can be read back from its listing. -/
theorem Operand.readsBack_read (locals : List Text) (text : Text) :
    (Operand.read locals text).value.ReadsBack locals := by
  rw [Operand.read]
  split
  · rename_i hknown
    exact readsBack_known? hknown
  · exact readsBack_zero

/-- Every call that was read can be read back from its listing. -/
theorem Call.readsBack_read {call : Call} (h : (Call.read locals text).value = some call) :
    call.ReadsBack locals := by
  obtain ⟨texts, harguments⟩ := Call.exists_arguments_eq h
  intro argument hargument
  rw [harguments] at hargument
  obtain ⟨argumentText, -, rfl⟩ := List.mem_map.mp hargument
  exact Operand.readsBack_read locals argumentText

/-- Every atom that was read can be read back from its listing. -/
theorem Atom.readsBack_read {atom : Atom} (h : (Atom.read locals text).value = some atom) :
    atom.ReadsBack locals := by
  unfold Atom.read at h
  split at h
  · obtain ⟨call, hcall, rfl⟩ := Option.map_eq_some_iff.mp h
    exact Call.readsBack_read hcall
  · obtain rfl := Option.some.inj h
    exact Operand.readsBack_read locals text

end Reading

/-! ### Operands -/

namespace Operand

variable {o other : Operand} {rest rest' : Text}

/-- No two operands have the same listing. -/
theorem ReadsBack.injective (h : o.ReadsBack locals) (hother : other.ReadsBack locals)
    (hlisting : o.listing locals = other.listing locals) : o = other := by
  rw [ReadsBack, hlisting] at h
  exact Option.some.inj (h.symm.trans hother)

/-- A number is written as one token. -/
theorem isToken_write (value : Int) : IsToken (Decimal.write value) := by
  have hdigits (n : Nat) : IsToken (Decimal.writeNat n) :=
    ⟨Decimal.writeNat_ne_nil n, List.all_eq_true.mpr fun _ hc =>
      isTokenChar_of_isNameChar (isNameChar_of_isDigit (Decimal.isDigit_of_mem_writeNat hc))⟩
  cases value with
  | ofNat n => exact hdigits n
  | negSucc n =>
    refine ⟨List.cons_ne_nil _ _, List.all_eq_true.mpr (List.forall_mem_cons.mpr ⟨rfl, ?_⟩)⟩
    exact fun _ => (hdigits (n + 1)).isTokenChar

/-- Names of members, with their stems, are words. -/
theorem isWord_member (family : Family) {member : String} (h : member ∈ family.members) :
    IsWord (family.stem.toList ++ member.toList) := by
  have hall : ∀ member ∈ family.members, IsWord (family.stem.toList ++ member.toList) := by
    cases family <;> decide
  exact hall member h

theorem isWord_slotName (hlocals : ∀ name ∈ locals, isIdentifier name = true) {index : Nat}
    (h : index < locals.length) : IsWord (slotName locals index) := by
  rw [slotName, List.getElem?_eq_getElem h]
  exact isWord_of_isIdentifier (hlocals _ (List.getElem_mem h))

/-- An operand is listed as a word, unless it is a number. -/
theorem isWord_listing (hlocals : ∀ name ∈ locals, isIdentifier name = true)
    (h : o.ReadsBack locals) (hnumber : ∀ value, o ≠ .constant value) :
    IsWord (o.listing locals) := by
  have hscope := inScope_known? h
  cases o with
  | constant value => exact absurd rfl (hnumber value)
  | slot index => exact isWord_slotName hlocals hscope
  | external v =>
    have hname : IsWord v.name.toList := by cases v <;> decide
    exact hname
  | named family value =>
    obtain ⟨member, hmember⟩ := Option.isSome_iff_exists.mp hscope
    rw [listing, hmember]
    refine isWord_member family ?_
    rw [Family.memberName?] at hmember
    split at hmember
    · cases hmember
    · exact List.mem_of_getElem? hmember

/-- An operand is listed as one token. -/
theorem isToken_listing (hlocals : ∀ name ∈ locals, isIdentifier name = true)
    (h : o.ReadsBack locals) : IsToken (o.listing locals) := by
  by_cases hnumber : ∃ value, o = .constant value
  · obtain ⟨value, rfl⟩ := hnumber
    exact isToken_write value.toInt
  · exact (isWord_listing hlocals h fun value heq => hnumber ⟨value, heq⟩).isToken

/-- The words of a listing stand for no operand. -/
theorem listing_ne_of_notMem {word : Text} (h : o.ReadsBack locals) (hword : word ∈ listingWords)
    (hlocals : word ∉ locals) : o.listing locals ≠ word := by
  intro heq
  have hslot : slot? locals word = none :=
    List.findIdx?_eq_none_iff.mpr fun name hname =>
      decide_eq_false fun hname' => hlocals (hname' ▸ hname)
  have hnone : ∀ word ∈ listingWords, Decimal.readInt32? word = none ∧
      ExternalVariable.named? word = none ∧ Family.resolve? word = none := by decide
  obtain ⟨hnumber, hexternal, hfamily⟩ := hnone word hword
  rw [ReadsBack, heq, known?, hslot, hnumber, hexternal, hfamily] at h
  cases h

/-- No operand is listed as a word of the language. -/
theorem listing_notMem_listingWords (hlocals : AreListable locals) (h : o.ReadsBack locals) :
    o.listing locals ∉ listingWords := fun hword =>
  listing_ne_of_notMem h hword (fun hname => (hlocals _ hname).2 hword) rfl

end Operand

/-! ### Atoms -/

/-- An operand or a call in front of the text ends there. -/
def EndsAtom (text : Text) : Prop := ∀ c ∈ text.head?, isTokenChar c = false ∧ c ≠ '('

theorem EndsAtom.endsToken {text : Text} (h : EndsAtom text) : EndsToken text :=
  fun c hc => (h c hc).1

theorem endsAtom_cons {c : Char} {text : Text} (h : isTokenChar c = false) (hopen : c ≠ '(') :
    EndsAtom (c :: text) := by
  intro d hd
  obtain rfl := Option.some.inj hd
  exact ⟨h, hopen⟩

theorem not_endsAtom_open {text : Text} : ¬ EndsAtom ('(' :: text) := fun h => (h '(' rfl).2 rfl

theorem isWord_functionName (function : Function) : IsWord function.name.toList := by
  have hall : ∀ function ∈ Function.all, IsWord function.name.toList := by decide
  have hmem := Function.named?_name function
  exact hall function (List.mem_of_find?_eq_some hmem)

section Prefix

variable {rest rest' : Text}

/-- The listing of a call, up to its closing bracket and on. -/
theorem Call.listing_append (call : Call) (rest : Text) :
    call.listing locals ++ rest = call.function.name.toList ++ '(' ::
      (joinedBy ", ".toList (call.arguments.map (Operand.listing locals)) ++ ')' :: rest) := by
  simp [Call.listing]

/-- The call that a listing begins with is determined. -/
theorem Call.listing_unique {call other : Call} (hlocals : AreListable locals)
    (h : call.ReadsBack locals) (hother : other.ReadsBack locals)
    (hlisting : call.listing locals ++ rest = other.listing locals ++ rest') :
    call = other ∧ rest = rest' := by
  rw [Call.listing_append, Call.listing_append] at hlisting
  obtain ⟨hname, hbehind⟩ := token_unique (isWord_functionName _).isToken
    (isWord_functionName _).isToken (endsToken_cons rfl) (endsToken_cons rfl) hlisting
  have hfunction : call.function = other.function := by
    have hnamed := Function.named?_name call.function
    rw [hname, Function.named?_name] at hnamed
    exact (Option.some.inj hnamed).symm
  have hreads (o : Operand) (ho : o ∈ call.arguments ∨ o ∈ other.arguments) : o.ReadsBack locals :=
    ho.elim (h o) (hother o)
  -- Each argument ends where its token ends, at a comma or at the closing bracket.
  have heach : ∀ a ∈ call.arguments, ∀ b ∈ other.arguments, ∀ rest rest', EndsToken rest →
      EndsToken rest' → a.listing locals ++ rest = b.listing locals ++ rest' →
      a = b ∧ rest = rest' := by
    intro a ha b hb rest rest' hrest hrest' heq
    have ha := hreads a (.inl ha)
    have hb := hreads b (.inr hb)
    obtain ⟨hsame, hrest⟩ := token_unique (Operand.isToken_listing hlocals.isIdentifier ha)
      (Operand.isToken_listing hlocals.isIdentifier hb) hrest hrest' heq
    exact ⟨ha.injective hb hsame, hrest⟩
  obtain ⟨harguments, hrest⟩ := joinedBy_unique (by decide) heach
    (fun _ => endsToken_cons rfl) (fun _ _ _ => endsToken_cons rfl)
    (fun o ho _ _ => token_ne_cons (Operand.isToken_listing hlocals.isIdentifier (hreads o ho)) rfl)
    (List.cons.inj hbehind).2
  cases call
  cases other
  simp_all

/-- The operand or call that a listing begins with is determined. -/
theorem Atom.listing_unique {atom other : Atom} (hlocals : AreListable locals)
    (h : atom.ReadsBack locals) (hother : other.ReadsBack locals) (hrest : EndsAtom rest)
    (hrest' : EndsAtom rest')
    (hlisting : atom.listing locals ++ rest = other.listing locals ++ rest') :
    atom = other ∧ rest = rest' := by
  -- A call goes on where an operand ends.
  have hapart {o : Operand} {call : Call} {rest rest' : Text} (ho : o.ReadsBack locals)
      (hrest : EndsAtom rest) :
      o.listing locals ++ rest ≠ call.listing locals ++ rest' := by
    intro heq
    rw [Call.listing_append] at heq
    obtain ⟨-, hbehind⟩ := token_unique (Operand.isToken_listing hlocals.isIdentifier ho)
      (isWord_functionName _).isToken hrest.endsToken (endsToken_cons rfl) heq
    exact not_endsAtom_open (hbehind ▸ hrest)
  match atom, other with
  | .operand o, .operand o' =>
    obtain ⟨hsame, hbehind⟩ := token_unique (Operand.isToken_listing hlocals.isIdentifier h)
      (Operand.isToken_listing hlocals.isIdentifier hother) hrest.endsToken hrest'.endsToken
      hlisting
    exact ⟨congrArg Atom.operand (Operand.ReadsBack.injective h hother hsame), hbehind⟩
  | .operand o, .call c => exact absurd hlisting (hapart h hrest)
  | .call c, .operand o => exact absurd hlisting.symm (hapart hother hrest')
  | .call c, .call c' =>
    obtain ⟨hsame, hbehind⟩ := Call.listing_unique hlocals h hother hlisting
    exact ⟨congrArg Atom.call hsame, hbehind⟩

/-- No atom is listed as one of the words of a listing. -/
theorem Atom.listing_ne_word {atom : Atom} {word : Text} (hlocals : AreListable locals)
    (h : atom.ReadsBack locals) (hword : word ∈ listingWords) (hrest : EndsAtom rest)
    (hrest' : EndsAtom rest') : atom.listing locals ++ rest ≠ word ++ rest' := by
  have hwords : ∀ word ∈ listingWords, IsWord word := by decide
  have htoken := (hwords word hword).isToken
  intro heq
  cases atom with
  | operand o =>
    obtain ⟨rfl, -⟩ := token_unique (Operand.isToken_listing hlocals.isIdentifier h) htoken
      hrest.endsToken hrest'.endsToken heq
    exact Operand.listing_notMem_listingWords hlocals h hword
  | call call =>
    rw [Atom.listing, Call.listing_append] at heq
    obtain ⟨-, hbehind⟩ := token_unique (isWord_functionName _).isToken htoken
      (endsToken_cons rfl) hrest'.endsToken heq
    exact not_endsAtom_open (hbehind ▸ hrest')

/-- An atom is listed with a character of names and numbers in front. -/
theorem Atom.exists_listing_cons {atom : Atom}
    (hlocals : ∀ name ∈ locals, isIdentifier name = true) (h : atom.ReadsBack locals) :
    ∃ c text, atom.listing locals = c :: text ∧ isTokenChar c = true := by
  cases atom with
  | operand o => exact (Operand.isToken_listing hlocals h).exists_cons
  | call call =>
    obtain ⟨c, text, hname, hc⟩ := (isWord_functionName call.function).isToken.exists_cons
    exact ⟨c, _, by rw [Atom.listing, Call.listing, hname]; rfl, hc⟩

/-- What begins with an atom begins with no other character. -/
theorem Atom.listing_ne_cons {atom : Atom} {c : Char} (hlocals : AreListable locals)
    (h : atom.ReadsBack locals) (hc : isTokenChar c = false) (text rest : Text) :
    atom.listing locals ++ text ≠ c :: rest := by
  obtain ⟨d, behind, hlisting, hd⟩ := exists_listing_cons hlocals.isIdentifier h
  intro heq
  rw [hlisting] at heq
  obtain ⟨rfl, -⟩ := List.cons.inj heq
  rw [hd] at hc
  cases hc

end Prefix

end SignalScript
