import Mathlib.Data.List.Forall2
import SignalScript.Proofs.Expression.Scope
import SignalScript.Proofs.Text.Cutting
import SignalScript.Proofs.Text.Word

/-!
# The form of a call

A call is the name of a function with its arguments in one pair of brackets, as many as the function
takes and with commas between them. A text of this form is read without a note.

The reader accepts more than that. It deletes every closing bracket and splits what remains, so a
closing bracket may stand anywhere behind the opening one, or be missing, and what stands behind it
is merged into the last argument. Of the texts that are read without a note, those that end in their
one closing bracket have the form of a call.

## Main definitions

* `Call.Lists` — the operands that a text lists between commas
* `Call.Spells` — the text has the form of a call
* `EndsInBracket` — the one closing bracket of a text stands at its end

## Main results

* `Call.read_append_eq_some_iff` — which texts are read without a note, behind an opening bracket
* `Call.spells_iff` — the texts of the form of a call are those of them that end in their bracket
* `Call.exists_behind_merged` — text behind the bracket is merged into an argument
-/

namespace SignalScript

open Text

/-! ### Steps without notes -/

section Notes

variable {ν α β : Type}

/-- Two steps leave no note if neither of them does. -/
theorem Noted.bind_eq_pure_iff {first : Noted ν α} {next : α → Noted ν β} {b : β} :
    first >>= next = pure b ↔ ∃ a, first = pure a ∧ next a = pure b := by
  obtain ⟨a, notes⟩ := first
  constructor
  · intro h
    obtain ⟨hvalue, hnotes⟩ := Noted.mk.inj h
    obtain ⟨rfl, hnext⟩ := List.append_eq_nil_iff.mp hnotes
    refine ⟨a, rfl, ?_⟩
    have hall : next a = ⟨(next a).value, (next a).notes⟩ := rfl
    rw [hall]
    exact congrArg₂ Noted.mk hvalue hnext
  · rintro ⟨a', hfirst, hnext⟩
    rw [hfirst, pure_bind, hnext]

/-- Nothing is noted about a list if nothing is noted about any element of it. -/
theorem Noted.mapM_eq_pure_iff {f : α → Noted ν β} {list : List α} {values : List β} :
    list.mapM f = pure values ↔ List.Forall₂ (fun a b => f a = pure b) list values := by
  induction list generalizing values with
  | nil =>
    rw [List.mapM_nil, List.forall₂_nil_left_iff]
    exact ⟨fun h => (congrArg Noted.value h).symm, fun h => h ▸ rfl⟩
  | cons a list ih =>
    simp only [List.mapM_cons, bind_eq_pure_iff, ih, List.forall₂_cons_left_iff]
    constructor
    · rintro ⟨b, hb, more, hmore, hvalues⟩
      exact ⟨b, more, hb, hmore, (congrArg Noted.value hvalues).symm⟩
    · rintro ⟨b, more, hb, hmore, rfl⟩
      exact ⟨b, hb, more, hmore, rfl⟩

end Notes

/-! ### Texts of the form of a call -/

/-- The text lists operands between commas, each with any blanks around it; a blank text lists
none. -/
inductive Call.Lists (locals : List Text) : Text → List Operand → Prop
  | none {text : Text} (hblank : ∀ c ∈ text, isBlank c = true) : Lists locals text []
  | some {texts : List Text} {operands : List Operand} (hne : texts ≠ [])
    (hcomma : ∀ text ∈ texts, ',' ∉ text)
    (hsome : ¬ ∀ c ∈ joinedBy [','] texts, isBlank c = true)
    (hread : List.Forall₂ (fun text operand => Operand.read locals (trim text) = pure operand) texts
      operands) : Lists locals (joinedBy [','] texts) operands

/-- The text is the name of a function with its arguments in brackets, with any blanks between
these parts and around them. -/
inductive Call.Spells (locals : List Text) : Text → Call → Prop
  | mk {call : Call} {before gap inner behind : Text} (hbefore : ∀ c ∈ before, isBlank c = true)
    (hgap : ∀ c ∈ gap, isBlank c = true) (hbehind : ∀ c ∈ behind, isBlank c = true)
    (hopen : '(' ∉ inner) (hclose : ')' ∉ inner) (hlists : Lists locals inner call.arguments)
    (harity : call.arguments.length = call.function.arity) :
    Spells locals
      (before ++ (call.function.name.toList ++ gap) ++ '(' :: (inner ++ ')' :: behind)) call

/-- The text has one closing bracket, and nothing but blanks behind it. -/
def EndsInBracket (text : Text) : Prop :=
  ∃ front behind : Text, ')' ∉ front ∧ (∀ c ∈ behind, isBlank c = true) ∧
    text = front ++ ')' :: behind

/-- The text without its closing brackets. -/
def withoutClosing (text : Text) : Text := text.filter fun c => c ≠ ')'

section Reading

variable {locals : List Text} {text before rest inner behind : Text} {call : Call}
  {operands : List Operand}

theorem withoutClosing_eq (h : ')' ∉ text) : withoutClosing text = text :=
  List.filter_eq_self.mpr fun _ hc => decide_eq_true fun heq => h (heq ▸ hc)

/-- Blanks behind a closing bracket do not count. -/
theorem trim_withoutClosing (hinner : ')' ∉ inner) (hbehind : ∀ c ∈ behind, isBlank c = true) :
    trim (withoutClosing (inner ++ ')' :: behind)) = trim inner := by
  have hfree : ')' ∉ behind := not_mem_of_blank hbehind rfl
  have hdrop : withoutClosing (inner ++ ')' :: behind) =
      withoutClosing inner ++ withoutClosing behind := List.filter_append ..
  rw [hdrop, withoutClosing_eq hinner, withoutClosing_eq hfree]
  have hfront : ∀ c ∈ ([] : Text), isBlank c = true := List.forall_mem_nil _
  exact trim_pad hfront hbehind

namespace Function

theorem not_bracket_mem_name (function : Function) :
    '(' ∉ function.name.toList ∧ ')' ∉ function.name.toList := by
  rcases function with _ | _ | which | which | which | _ | _ | _ | _ | _ <;>
    (try cases which) <;> decide

theorem isTight_name (function : Function) : IsTight function.name.toList := by
  rcases function with _ | _ | which | which | which | _ | _ | _ | _ | _ <;>
    (try cases which) <;> decide

/-- A function is found by its own name only. -/
theorem name_of_named? {name : Text} {function : Function} (h : named? name = some function) :
    name = function.name.toList := by
  have hname := List.find?_some h
  exact (of_decide_eq_true hname).symm

end Function

namespace Call

/-- The arguments are read without a note if the text without closing brackets lists them. -/
theorem mapM_read_eq_pure_iff (hinner : trim (withoutClosing rest) = trim inner) :
    (argumentTexts rest).mapM (Operand.read locals) = pure operands ↔
      Lists locals inner operands := by
  have htexts : argumentTexts rest =
      if (trim inner).isEmpty then [] else (pieces ',' inner).map trim := by
    rw [← map_trim_pieces_trim rfl inner, ← hinner]
    rfl
  rw [htexts, Noted.mapM_eq_pure_iff]
  -- A text of blanks lists nothing, where splitting it would give one empty piece.
  by_cases hblank : ∀ c ∈ inner, isBlank c = true
  · rw [trim_eq_nil_iff.mpr hblank, List.isEmpty_nil, if_pos rfl, List.forall₂_nil_left_iff]
    constructor
    · rintro rfl
      exact .none hblank
    · intro h
      cases h with
      | none => rfl
      | some _ _ hsome => exact absurd hblank hsome
  · have hsome : ¬ (trim inner).isEmpty = true := by
      rwa [List.isEmpty_iff, trim_eq_nil_iff]
    rw [if_neg hsome, List.forall₂_map_left_iff]
    constructor
    · intro hread
      rw [← joinedBy_pieces ',' inner]
      exact .some (pieces_ne_nil _ _) (fun _ => not_mem_of_mem_pieces)
        (by rwa [joinedBy_pieces]) hread
    · intro h
      cases h with
      | none h => exact absurd h hblank
      | some hne hcomma _ hread => rwa [pieces_joinedBy hne hcomma]

/-- A call is read without a note exactly if the text behind the opening bracket lists, apart from
closing brackets, as many operands as the function takes. -/
theorem read_append_eq_some_iff (hbefore : '(' ∉ before)
    (hinner : trim (withoutClosing rest) = trim inner) :
    read locals (before ++ '(' :: rest) = pure (some call) ↔
      '(' ∉ rest ∧ trim before = call.function.name.toList ∧
        Lists locals inner call.arguments ∧ call.arguments.length = call.function.arity := by
  obtain ⟨function, arguments⟩ := call
  rw [← mapM_read_eq_pure_iff hinner, read, cut?_append_cons hbefore]
  simp only
  by_cases hopen : '(' ∈ rest
  · rw [if_pos hopen]
    exact ⟨fun h => (by cases h), fun h => absurd hopen h.1⟩
  · rw [if_neg hopen]
    cases hname : Function.named? (trim before) with
    | none =>
      refine ⟨fun h => (by cases h), fun ⟨_, hfunction, _⟩ => ?_⟩
      rw [hfunction, Function.named?_name] at hname
      cases hname
    | some found =>
      -- Both directions come down to the number of arguments, which is noted if it is wrong.
      have hfound := Function.name_of_named? hname
      simp only [Noted.bind_eq_pure_iff]
      constructor
      · rintro ⟨operands, hread, hcall⟩
        split at hcall
        · cases hcall
        · rename_i hcount
          obtain ⟨rfl, rfl⟩ := Call.mk.inj (Option.some.inj (congrArg Noted.value hcall))
          exact ⟨hopen, hfound, hread, not_not.mp hcount⟩
      · rintro ⟨-, hfunction, hread, hcount⟩
        rw [hfunction, Function.named?_name] at hname
        obtain rfl := Option.some.inj hname
        exact ⟨arguments, hread, if_neg (not_not_intro hcount)⟩

/-- The parts of a text of the form of a call. -/
theorem Spells.exists_parts (h : Spells locals text call) :
    ∃ before inner behind, '(' ∉ before ∧ ')' ∉ before ∧ '(' ∉ inner ∧ ')' ∉ inner ∧
      (∀ c ∈ behind, isBlank c = true) ∧ text = before ++ '(' :: (inner ++ ')' :: behind) ∧
      trim before = call.function.name.toList ∧ Lists locals inner call.arguments ∧
      call.arguments.length = call.function.arity := by
  cases h with
  | @mk call front gap inner behind hfront hgap hbehind hopen hclose hlists harity =>
    obtain ⟨hnameOpen, hnameClose⟩ := call.function.not_bracket_mem_name
    have hfrontOpen : '(' ∉ front := not_mem_of_blank hfront rfl
    have hfrontClose : ')' ∉ front := not_mem_of_blank hfront rfl
    have hgapOpen : '(' ∉ gap := not_mem_of_blank hgap rfl
    have hgapClose : ')' ∉ gap := not_mem_of_blank hgap rfl
    refine ⟨_, inner, behind, ?_, ?_, hopen, hclose, hbehind, rfl, ?_, hlists, harity⟩
    · simp [hfrontOpen, hnameOpen, hgapOpen]
    · simp [hfrontClose, hnameClose, hgapClose]
    · rw [trim_pad hfront hgap, call.function.isTight_name.trim_eq]

/-- The parts of a text around its brackets spell a call, if there are no further brackets. -/
theorem spells_of_parts (hopen : '(' ∉ inner) (hclose : ')' ∉ inner)
    (hbehind : ∀ c ∈ behind, isBlank c = true) (hname : trim before = call.function.name.toList)
    (hlists : Lists locals inner call.arguments)
    (harity : call.arguments.length = call.function.arity) :
    Spells locals (before ++ '(' :: (inner ++ ')' :: behind)) call := by
  obtain ⟨front, gap, hfront, hgap, htext⟩ := exists_pad before
  rw [htext, hname]
  exact .mk hfront hgap hbehind hopen hclose hlists harity

/-- A text has the form of a call exactly if it is read without a note and ends in its one closing
bracket. -/
theorem spells_iff : Spells locals text call ↔
    read locals text = pure (some call) ∧ EndsInBracket text := by
  constructor
  · intro h
    -- Deleting the closing bracket leaves blanks behind the list, which are trimmed.
    obtain ⟨before, inner, behind, hbefore, hfree, hopen, hclose, hbehind, rfl, hname, hlists,
      harity⟩ := h.exists_parts
    have hblank : '(' ∉ behind := not_mem_of_blank hbehind rfl
    have hrest : '(' ∉ inner ++ ')' :: behind := by simp [hopen, hblank]
    have hfront : ')' ∉ before ++ '(' :: inner := by simp [hfree, hclose]
    exact ⟨(read_append_eq_some_iff hbefore (trim_withoutClosing hclose hbehind)).mpr
      ⟨hrest, hname, hlists, harity⟩, _, behind, hfront, hbehind, by simp⟩
  · rintro ⟨hread, front, behind, hfront, hbehind, rfl⟩
    -- The opening bracket stands in front of the closing one, since nothing but blanks is behind.
    cases hcut : cut? '(' front with
    | none =>
      have hblank : '(' ∉ behind := not_mem_of_blank hbehind rfl
      have hnone : '(' ∉ front ++ ')' :: behind := by simp [cut?_eq_none_iff.mp hcut, hblank]
      rw [read, cut?_eq_none_iff.mpr hnone] at hread
      cases hread
    | some pair =>
      obtain ⟨before, inner⟩ := pair
      have hbefore := not_mem_of_cut?_eq_some hcut
      obtain rfl := cut?_eq_some hcut
      have hclose : ')' ∉ inner := fun hmem => hfront (by simp [hmem])
      rw [List.append_assoc, List.cons_append] at hread ⊢
      obtain ⟨hopen, hname, hlists, harity⟩ :=
        (read_append_eq_some_iff hbefore (trim_withoutClosing hclose hbehind)).mp hread
      exact spells_of_parts (fun hmem => hopen (List.mem_append_left _ hmem)) hclose hbehind hname
        hlists harity

/-- Text behind the closing bracket is merged into the last argument without a note. -/
theorem exists_behind_merged : ¬ ∀ (locals : List Text) (text : Text) (call : Call),
    (∀ name ∈ locals, isIdentifier name = true) → read locals text = pure (some call) →
      Spells locals text call := by
  intro h
  have hread : read [] "NEXT_SIG_LR(1)2".toList =
      pure (some ⟨.nextSignal .least, [.constant 12]⟩) := by decide
  obtain ⟨before, inner, behind, -, hbefore, -, hclose, hbehind, htext, -⟩ :=
    (h [] _ _ (fun _ hname => by cases hname) hread).exists_parts
  have hfront : ')' ∉ before ++ '(' :: inner := by simp [hbefore, hclose]
  have hcut : cut? ')' "NEXT_SIG_LR(1)2".toList = some (before ++ '(' :: inner, behind) := by
    rw [htext, ← cut?_append_cons hfront behind]
    simp
  obtain ⟨-, rfl⟩ := Prod.mk.inj (Option.some.inj hcut)
  exact absurd (hbehind '2' List.mem_cons_self) (by decide)

end Call

end Reading

end SignalScript
