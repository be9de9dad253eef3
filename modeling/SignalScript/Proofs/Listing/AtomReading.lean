import SignalScript.Proofs.Expression.ChainReading
import SignalScript.Proofs.Listing.Chain

/-!
# Reading listed operands and calls

The listing of an operand or call that stands in a chain is read as that operand or call. A wrong
number of arguments is listed as it is, so it is noted again; nothing else is.

## Main definitions

* `AreNames` — names of local variables that are read as names in a chain
* `Call.mismatch`, `Atom.mismatch` — what is noted where a listing is read

## Main results

* `Operand.read_listing`, `Call.read_listing`, `Atom.read_listing` — what is listed is read
* `Atom.IsTerm.startsTerm_listing`, `Atom.IsTerm.isRun_listing` — the listing of what stands in a
  chain is one token of a chain
-/

namespace SignalScript

open Text

/-- The names are identifiers, and no words of chains. -/
def AreNames (locals : List Text) : Prop :=
  ∀ name ∈ locals, isIdentifier name = true ∧ name ∉ Written.chainWords

theorem AreNames.isIdentifier {locals : List Text} (h : AreNames locals) :
    ∀ name ∈ locals, isIdentifier name = true := fun name hname => (h name hname).1

/-- What is noted about the number of arguments. -/
def Call.mismatch (call : Call) : List Cause :=
  if call.arguments.length ≠ call.function.arity then
    [.arityMismatch call.function call.arguments.length]
  else []

/-- What is noted about the number of arguments, if it is a call. -/
def Atom.mismatch : Atom → List Cause
  | .operand _ => []
  | .call c => c.mismatch

/-! ### Lists of tokens -/

section Tokens

variable {token : Text} {texts : List Text}

theorem isBlank_of_isTokenChar {c : Char} (h : isTokenChar c = true) : isBlank c = false := by
  rw [isTokenChar, Bool.or_eq_true, decide_eq_true_eq] at h
  rcases h with h | rfl
  · exact isBlank_of_isNameChar h
  · rfl

theorem Text.IsToken.isTight (h : IsToken token) : IsTight token := by
  have hhead := isBlank_of_isTokenChar (h.isTokenChar (List.head_mem h.1))
  have hlast := isBlank_of_isTokenChar (h.isTokenChar (List.getLast_mem h.1))
  exact isTight_iff.mpr ⟨_, _, List.head?_eq_some_head h.1, List.getLast?_eq_some_getLast h.1,
    hhead, hlast⟩

/-- Tokens that are joined by commas and spaces are found between the commas. -/
theorem map_trim_pieces_joinedBy (hne : texts ≠ []) (htexts : ∀ text ∈ texts, IsToken text) :
    (pieces ',' (joinedBy ", ".toList texts)).map trim = texts := by
  induction texts with
  | nil => exact absurd rfl hne
  | cons text more ih =>
    obtain ⟨htext, hmore⟩ := List.forall_mem_cons.mp htexts
    have hcomma : ',' ∉ text := htext.not_mem rfl
    by_cases hnil : more = []
    · subst hnil
      rw [joinedBy, pieces_of_not_mem hcomma, List.map_singleton, htext.isTight.trim_eq]
    · have hspace : ∀ c ∈ [' '], isBlank c = true := List.forall_mem_singleton.mpr rfl
      have hjoined : joinedBy ", ".toList (text :: more) =
          text ++ ',' :: ([' '] ++ joinedBy ", ".toList more) := joinedBy_cons hnil _
      rw [hjoined, pieces_append_cons hcomma, List.map_cons, htext.isTight.trim_eq,
        map_trim_pieces_append_left hspace rfl, ih hnil hmore]

/-- What stands in a list of tokens is a character of tokens, or it separates them. -/
theorem not_mem_joinedBy {c : Char} (hc : isTokenChar c = false) (hseparator : c ∉ ", ".toList)
    (htexts : ∀ text ∈ texts, IsToken text) : c ∉ joinedBy ", ".toList texts := by
  have hall : ∀ d ∈ joinedBy ", ".toList texts, d ≠ c :=
    forall_mem_joinedBy (fun d hd heq => hseparator (heq ▸ hd)) fun text htext d hd heq =>
      (htexts text htext).not_mem hc (heq ▸ hd)
  exact fun hmem => hall c hmem rfl

end Tokens

/-! ### Reading -/

section Reading

variable {locals : List Text}

/-- The listing of an operand is read as the operand. -/
theorem Operand.read_listing {o : Operand} (hlocals : ∀ name ∈ locals, isIdentifier name = true)
    (h : o.ReadsBack locals) : Operand.read locals (o.listing locals) = pure o := by
  have htoken := Operand.isToken_listing hlocals h
  obtain ⟨c, rest, hlisting, hc⟩ := htoken.exists_cons
  have hmark : c ≠ '#' := by
    rintro rfl
    cases hc
  have hname : trim (dropLeading '#' (o.listing locals)) = o.listing locals := by
    rw [hlisting, dropLeading, if_neg hmark, ← hlisting, htoken.isTight.trim_eq]
  rw [Operand.read, hname]
  simp only [show known? locals (o.listing locals) = some o from h]

namespace Call

variable {call : Call}

theorem listing_eq : call.listing locals = call.function.name.toList ++
    '(' :: (joinedBy ", ".toList (call.arguments.map (Operand.listing locals)) ++ [')']) := by
  rw [← List.append_nil (call.listing locals), listing_append]

/-- The arguments of a call are listed as tokens. -/
theorem isToken_of_mem_listings (hlocals : ∀ name ∈ locals, isIdentifier name = true)
    (h : call.ReadsBack locals) :
    ∀ text ∈ call.arguments.map (Operand.listing locals), IsToken text := by
  intro text htext
  obtain ⟨argument, hargument, rfl⟩ := List.mem_map.mp htext
  exact Operand.isToken_listing hlocals (h argument hargument)

/-- The listings of the arguments are found between the brackets. -/
theorem argumentTexts_listing (hlocals : ∀ name ∈ locals, isIdentifier name = true)
    (h : call.ReadsBack locals) :
    argumentTexts (joinedBy ", ".toList (call.arguments.map (Operand.listing locals)) ++ [')']) =
      call.arguments.map (Operand.listing locals) := by
  have htokens := isToken_of_mem_listings hlocals h
  generalize call.arguments.map (Operand.listing locals) = texts at htokens ⊢
  have hclose : ')' ∉ joinedBy ", ".toList texts := not_mem_joinedBy rfl (by decide) htokens
  have hfilter : (joinedBy ", ".toList texts ++ [')']).filter (fun c => c ≠ ')') =
      joinedBy ", ".toList texts := by
    rw [List.filter_append, List.filter_eq_self.mpr]
    · simp
    · intro c hc
      simpa using ne_of_mem_of_not_mem hc hclose
  rw [argumentTexts, hfilter]
  by_cases hne : texts = []
  · subst hne
    rfl
  · have hpieces : (pieces ',' (trim (joinedBy ", ".toList texts))).map trim = texts := by
      rw [map_trim_pieces_trim rfl, map_trim_pieces_joinedBy hne htokens]
    -- A blank text would be one piece, and a blank one.
    have hblank : ¬ (trim (joinedBy ", ".toList texts)).isEmpty = true := by
      intro hempty
      rw [List.isEmpty_iff.mp hempty] at hpieces
      have hnil : [] ∈ texts := by
        rw [← hpieces]
        exact List.mem_singleton_self []
      exact (htokens [] hnil).1 rfl
    simp only [if_neg hblank]
    exact hpieces

/-- The listing of a call is read as the call, and its number of arguments is noted if wrong. -/
theorem read_listing (hlocals : ∀ name ∈ locals, isIdentifier name = true)
    (h : call.ReadsBack locals) :
    Call.read locals (call.listing locals) = ⟨some call, call.mismatch⟩ := by
  have hname := isWord_functionName call.function
  have hopen : '(' ∉ joinedBy ", ".toList (call.arguments.map (Operand.listing locals)) ++ [')'] :=
    by simpa using not_mem_joinedBy (c := '(') rfl (by decide) (isToken_of_mem_listings hlocals h)
  -- Each argument is read from its own listing.
  have hread : (call.arguments.map (Operand.listing locals)).mapM (Operand.read locals) =
      pure call.arguments := by
    have harguments : ∀ arguments : List Operand, (∀ o ∈ arguments, o.ReadsBack locals) →
        (arguments.map (Operand.listing locals)).mapM (Operand.read locals) = pure arguments := by
      intro arguments harguments
      induction arguments with
      | nil => rfl
      | cons o more ih =>
        obtain ⟨ho, hmore⟩ := List.forall_mem_cons.mp harguments
        rw [List.map_cons, List.mapM_cons, Operand.read_listing hlocals ho, ih hmore]
        rfl
    exact harguments call.arguments h
  rw [listing_eq, Call.read, cut?_append_cons (hname.not_mem rfl)]
  simp only [if_neg hopen, hname.isTight.trim_eq, Function.named?_name,
    argumentTexts_listing hlocals h, hread, pure_bind]
  rw [mismatch]
  split <;> rfl

end Call

/-- The listing of an operand or call is read as such. -/
theorem Atom.read_listing {atom : Atom} (hlocals : ∀ name ∈ locals, isIdentifier name = true)
    (h : atom.ReadsBack locals) :
    Atom.read locals (atom.listing locals) = ⟨some atom, atom.mismatch⟩ := by
  rw [Atom.read]
  cases atom with
  | operand o =>
    have hopen : '(' ∉ o.listing locals := (Operand.isToken_listing hlocals h).not_mem rfl
    rw [Atom.listing, if_neg hopen, Operand.read_listing hlocals h]
    rfl
  | call c =>
    have hopen : '(' ∈ c.listing locals := by simp [Call.listing]
    rw [Atom.listing, if_pos hopen, Call.read_listing hlocals h]
    exact congrArg (Noted.mk _) (List.append_nil _)

/-! ### Tokens of a chain -/

namespace Atom

variable {atom : Atom} {rest : Text}

/-- The listing of what stands in a chain ends at its word, or goes on with a bracket. -/
theorem IsTerm.startsTerm_listing (hlocals : AreNames locals) (h : atom.IsTerm locals)
    (hrest : EndsWord rest) : Written.StartsTerm (atom.listing locals ++ rest) := by
  cases atom with
  | operand o =>
    have hnot : "NOT".toList ∉ locals := fun hmem => (hlocals _ hmem).2 (by decide)
    exact Written.startsTerm_word (Operand.isWord_of_isTerm hlocals.isIdentifier h)
      (Operand.listing_ne_of_notMem h.readsBack (by decide) hnot) hrest
  | call c =>
    rw [listing, Call.listing_append]
    exact Written.startsTerm_word (isWord_functionName c.function)
      (Written.function_ne c.function (by decide)) (endsWord_cons rfl)

/-- No atom is listed as `RETURN`. -/
theorem IsTerm.listing_ne_return (hlocals : AreNames locals) (h : atom.IsTerm locals) :
    atom.listing locals ≠ "RETURN".toList := by
  cases atom with
  | operand o =>
    have hreturn : "RETURN".toList ∉ locals := fun hmem => (hlocals _ hmem).2 (by decide)
    exact Operand.listing_ne_of_notMem h.readsBack (by decide) hreturn
  | call c =>
    intro heq
    have hopen : '(' ∈ "RETURN".toList := by
      rw [← heq]
      simp [listing, Call.listing]
    exact absurd hopen (by decide)

/-- No operator stands in a listing outside brackets. -/
theorem IsTerm.isRun_listing (hlocals : ∀ name ∈ locals, isIdentifier name = true)
    (h : atom.IsTerm locals) : IsRun (atom.listing locals) := by
  match atom, h with
  | .operand o, h => exact Written.isRun_word (Operand.isWord_of_isTerm hlocals h)
  | .call c, h =>
    have htokens := Call.isToken_of_mem_listings hlocals h.readsBack
    rw [listing, Call.listing_eq]
    exact (Written.isRun_word (isWord_functionName c.function)).append
      (IsRun.brackets (not_mem_joinedBy rfl (by decide) htokens)
        (not_mem_joinedBy rfl (by decide) htokens))

theorem isTight_listing (hlocals : ∀ name ∈ locals, isIdentifier name = true)
    (h : atom.ReadsBack locals) : IsTight (atom.listing locals) := by
  cases atom with
  | operand o => exact (Operand.isToken_listing hlocals h).isTight
  | call c =>
    have hclose : IsTight [')'] := IsTight.single rfl
    exact (isWord_functionName c.function).isTight.append hclose
      ('(' :: joinedBy ", ".toList (c.arguments.map (Operand.listing locals)))

/-- The brackets in the listing of an atom are balanced. -/
theorem isBalanced_listing (hlocals : ∀ name ∈ locals, isIdentifier name = true)
    (h : atom.ReadsBack locals) : IsBalanced (atom.listing locals) := by
  cases atom with
  | operand o =>
    have htoken := Operand.isToken_listing hlocals h
    exact .of_not_mem (htoken.not_mem rfl) (htoken.not_mem rfl)
  | call c =>
    have hname := isWord_functionName c.function
    have htokens := Call.isToken_of_mem_listings hlocals h
    rw [listing, Call.listing_eq]
    exact (IsBalanced.of_not_mem (hname.not_mem rfl) (hname.not_mem rfl)).append
      (IsBalanced.of_not_mem (not_mem_joinedBy rfl (by decide) htokens)
        (not_mem_joinedBy rfl (by decide) htokens)).enclose

end Atom

end Reading

end SignalScript
