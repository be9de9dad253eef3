import SignalScript.Proofs.Text.Cutting
import SignalScript.Proofs.Text.Word

/-!
# Tokens of a listing

A listing is read back without a look ahead: a token goes as far as its characters do, and a list
with a separator ends at the bracket that closes it. Each lemma here says that a text which begins
in two ways was made in one, with any text behind it.

## Main definitions

* `Text.isTokenChar`, `Text.IsToken` — the characters of names and numbers, and rows of them
* `Text.EndsToken` — a text that ends a token in front of it

## Main results

* `Text.token_unique` — the token that a text begins with is determined
* `Text.joinedBy_unique` — so is a list of what is determined, up to a closing bracket
-/

namespace SignalScript.Text

/-- The character stands in a name or in a number. -/
def isTokenChar (c : Char) : Bool := isNameChar c || c = '-'

/-- The text holds something, and only characters of names and numbers. -/
def IsToken (text : Text) : Prop := text ≠ [] ∧ text.all isTokenChar = true

instance (text : Text) : Decidable (IsToken text) := inferInstanceAs (Decidable (_ ∧ _))

/-- A token in front of the text ends there. -/
def EndsToken (text : Text) : Prop := ∀ c ∈ text.head?, isTokenChar c = false

section Tokens

variable {c : Char} {token other text rest rest' : Text}

theorem isTokenChar_of_isNameChar (h : isNameChar c = true) : isTokenChar c = true := by
  simp [isTokenChar, h]

theorem IsWord.isToken (h : IsWord text) : IsToken text :=
  ⟨h.1, List.all_eq_true.mpr fun _ hc => isTokenChar_of_isNameChar (h.isNameChar hc)⟩

namespace IsToken

theorem isTokenChar (h : IsToken token) (hc : c ∈ token) : Text.isTokenChar c = true :=
  List.all_eq_true.mp h.2 c hc

theorem not_mem (h : IsToken token) (hc : Text.isTokenChar c = false) : c ∉ token := by
  intro hmem
  rw [h.isTokenChar hmem] at hc
  cases hc

theorem exists_cons (h : IsToken token) :
    ∃ c rest, token = c :: rest ∧ Text.isTokenChar c = true := by
  obtain ⟨c, rest, rfl⟩ := List.exists_cons_of_ne_nil h.1
  exact ⟨c, rest, rfl, h.isTokenChar List.mem_cons_self⟩

end IsToken

theorem endsToken_nil : EndsToken [] := fun _ h => by cases h

theorem endsToken_cons (h : isTokenChar c = false) : EndsToken (c :: text) := by
  intro d hd
  obtain rfl := Option.some.inj hd
  exact h

/-- What is no character of tokens ends the token in front of it. -/
theorem takeWhile_token (h : IsToken token) (hrest : EndsToken rest) :
    (token ++ rest).takeWhile isTokenChar = token := by
  rw [List.takeWhile_append_of_pos fun c hc => h.isTokenChar hc]
  cases rest with
  | nil => simp
  | cons c rest => simp [hrest c rfl]

/-- A text begins with one token at most. -/
theorem token_unique (htoken : IsToken token) (hother : IsToken other) (hrest : EndsToken rest)
    (hrest' : EndsToken rest') (h : token ++ rest = other ++ rest') :
    token = other ∧ rest = rest' := by
  have hsame : token = other := by
    rw [← takeWhile_token htoken hrest, ← takeWhile_token hother hrest', h]
  subst hsame
  exact ⟨rfl, List.append_cancel_left h⟩

/-- A text that begins with a token begins with no other character. -/
theorem token_ne_cons (htoken : IsToken token) (hc : isTokenChar c = false) :
    token ++ rest ≠ c :: text := by
  obtain ⟨d, token, rfl, hd⟩ := htoken.exists_cons
  intro h
  obtain ⟨rfl, -⟩ := List.cons.inj h
  rw [hd] at hc
  cases hc

end Tokens

section Lists

variable {α : Type} {print : α → Text} {Follows : Text → Prop} {c : Char}
  {after rest rest' : Text} {list other : List α}

/-- What holds of the characters of some texts and of a separator holds of the texts joined. -/
theorem forall_mem_joinedBy {P : Char → Prop} {separator : Text} {texts : List Text}
    (hseparator : ∀ c ∈ separator, P c) (h : ∀ text ∈ texts, ∀ c ∈ text, P c) :
    ∀ c ∈ joinedBy separator texts, P c := by
  induction texts with
  | nil => simp [joinedBy]
  | cons text texts ih =>
    obtain ⟨htext, htexts⟩ := List.forall_mem_cons.mp h
    by_cases hnil : texts = []
    · subst hnil
      exact htext
    · rw [joinedBy_cons hnil]
      exact List.forall_mem_append.mpr ⟨htext, List.forall_mem_append.mpr ⟨hseparator, ih htexts⟩⟩

/-- The first of some joined texts comes first. -/
theorem exists_joinedBy_cons (separator first : Text) (later : List Text) :
    ∃ behind, joinedBy separator (first :: later) = first ++ behind := by
  cases later with
  | nil => exact ⟨[], (List.append_nil first).symm⟩
  | cons next more => exact ⟨_, joinedBy_cons (List.cons_ne_nil _ _) separator⟩

/-- If elements are determined by their texts in front of what may follow them, so is a list of
them in front of a closing bracket. -/
theorem joinedBy_unique (hc : c ≠ ')')
    (helement : ∀ a ∈ list, ∀ b ∈ other, ∀ rest rest', Follows rest → Follows rest' →
      print a ++ rest = print b ++ rest' → a = b ∧ rest = rest')
    (hclose : ∀ rest, Follows (')' :: rest))
    (hnext : ∀ a, a ∈ list ∨ a ∈ other → ∀ rest, Follows (c :: (after ++ (print a ++ rest))))
    (hbegin : ∀ a, a ∈ list ∨ a ∈ other → ∀ text rest, print a ++ text ≠ ')' :: rest)
    (h : joinedBy (c :: after) (list.map print) ++ ')' :: rest =
      joinedBy (c :: after) (other.map print) ++ ')' :: rest') : list = other ∧ rest = rest' := by
  -- Behind an element of a list stand the separator and the next, or the bracket.
  have hbehind (first next : α) (later : List α) (rest : Text) :
      ∃ behind, joinedBy (c :: after) ((first :: next :: later).map print) ++ ')' :: rest =
        print first ++ (c :: (after ++ (print next ++ behind))) ∧
        joinedBy (c :: after) ((next :: later).map print) ++ ')' :: rest =
          print next ++ behind := by
    obtain ⟨behind, hlater⟩ := exists_joinedBy_cons (c :: after) (print next) (later.map print)
    refine ⟨behind ++ ')' :: rest, ?_, ?_⟩
    · rw [List.map_cons, List.map_cons, joinedBy_cons (List.cons_ne_nil _ _), hlater]
      simp
    · rw [List.map_cons, hlater, List.append_assoc]
  induction list generalizing other with
  | nil =>
    cases other with
    | nil => exact ⟨rfl, (List.cons.inj h).2⟩
    | cons b later =>
      obtain ⟨behind, hlater⟩ := exists_joinedBy_cons (c :: after) (print b) (later.map print)
      rw [List.map_cons, hlater, List.append_assoc] at h
      exact absurd h.symm (hbegin b (.inr List.mem_cons_self) _ _)
  | cons a list ih =>
    cases other with
    | nil =>
      obtain ⟨behind, hlater⟩ := exists_joinedBy_cons (c :: after) (print a) (list.map print)
      rw [List.map_cons, hlater, List.append_assoc] at h
      exact absurd h (hbegin a (.inl List.mem_cons_self) _ _)
    | cons b other =>
      have hfirst := helement a List.mem_cons_self b List.mem_cons_self
      match list, other with
      | [], [] =>
        obtain ⟨rfl, hrest⟩ := hfirst _ _ (hclose _) (hclose _) h
        exact ⟨rfl, (List.cons.inj hrest).2⟩
      | [], next :: later =>
        obtain ⟨behind, hother, -⟩ := hbehind b next later rest'
        rw [hother] at h
        obtain ⟨-, hrest⟩ := hfirst _ _ (hclose _) (hnext next (.inr (by simp)) _) h
        exact absurd (List.cons.inj hrest).1.symm hc
      | next :: later, [] =>
        obtain ⟨behind, hlist, -⟩ := hbehind a next later rest
        rw [hlist] at h
        obtain ⟨-, hrest⟩ := hfirst _ _ (hnext next (.inl (by simp)) _) (hclose _) h
        exact absurd (List.cons.inj hrest).1 hc
      | next :: later, next' :: later' =>
        obtain ⟨behind, hlist, hlist'⟩ := hbehind a next later rest
        obtain ⟨behind', hother, hother'⟩ := hbehind b next' later' rest'
        rw [hlist, hother] at h
        obtain ⟨rfl, hrest⟩ := hfirst _ _ (hnext next (.inl (by simp)) _)
          (hnext next' (.inr (by simp)) _) h
        have htail := List.append_cancel_left (List.cons.inj hrest).2
        rw [← hlist', ← hother'] at htail
        obtain ⟨hsame, hrest⟩ := ih
          (fun a ha b hb => helement a (List.mem_cons_of_mem _ ha) b (List.mem_cons_of_mem _ hb))
          (fun a ha => hnext a (ha.imp (List.mem_cons_of_mem _) (List.mem_cons_of_mem _)))
          (fun a ha => hbegin a (ha.imp (List.mem_cons_of_mem _) (List.mem_cons_of_mem _))) htail
        exact ⟨congrArg (a :: ·) hsame, hrest⟩

end Lists

end SignalScript.Text
