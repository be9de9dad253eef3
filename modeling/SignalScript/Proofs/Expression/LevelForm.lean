import SignalScript.Proofs.Expression.Scope
import SignalScript.Proofs.Splitting

/-!
# The form of a level

The terms of a level, as they are read: a row of operands, calls and groups, where a group stands
for the terms of a level of its own right behind it and may end early at a `RETURN`. All that is
promised of a flat chain follows from this form, by induction on it.

## Main definitions

* `IsLevel` — the form of the terms of a level and of the groups in it
* `Chain.WellFormed` — what is promised of a flat chain

## Main results

* `IsLevel.opened`, `IsLevel.behind_opener` — how levels are numbered, and where their terms stand
* `IsLevel.wellFormed` — a chain of that form keeps all promises
-/

namespace SignalScript

/-- The level that a term opens. -/
def Term.opens? (term : Term) : Option Nat :=
  match term.factor with
  | .group level => some level
  | .atom _ | .ret => none

section Opening

variable {negated : Bool} {operator : Option Operator} {level inner : Nat} {atom : Atom}

@[simp] theorem Term.opens?_atom : (⟨negated, operator, level, .atom atom⟩ : Term).opens? = none :=
  rfl

@[simp] theorem Term.opens?_ret : (⟨negated, operator, level, .ret⟩ : Term).opens? = none := rfl

@[simp] theorem Term.opens?_group :
    (⟨negated, operator, level, .group inner⟩ : Term).opens? = some inner := rfl

end Opening

/-- What the term contributes is in scope. -/
def Term.InScope (locals : List Text) (term : Term) : Prop :=
  ∀ atom, term.factor = .atom atom → atom.InScope locals

/-- What is promised of a flat chain. -/
structure Chain.WellFormed (locals : List Text) (chain : Chain) : Prop where
  ne_nil : chain ≠ []
  inScope : ∀ term ∈ chain, term.InScope locals
  /-- The levels are numbered from one, in the order in which they are opened. -/
  opened : ∃ count, chain.filterMap Term.opens? = List.range' 1 count
  /-- The terms of a level stand behind the term that opens it. -/
  behind_opener : ∀ front term back, chain = front ++ term :: back → 0 < term.level →
    ∃ opener ∈ front, opener.opens? = some term.level
  /-- A term opens a level with a higher number than its own. -/
  level_lt : ∀ term ∈ chain, ∀ level, term.opens? = some level → term.level < level
  /-- A term without operator is the first of its level. -/
  first_of_level : ∀ front term back, chain = front ++ term :: back → term.operator = none →
    ∀ earlier ∈ front, earlier.level ≠ term.level
  /-- Nothing stands behind a `RETURN`. -/
  ret_last : ∀ front term back, chain = front ++ term :: back → term.factor = .ret → back = []

/-- The terms of level `level` and of the groups in it, when the levels up to `last` are taken. If
`led` holds, the first term has an operator. The levels up to `last'` are taken in the end; if
`returned` holds, a `RETURN` stands there. -/
inductive IsLevel (locals : List Text) : (level last : Nat) → (led : Bool) → Chain →
    (last' : Nat) → (returned : Bool) → Prop
  | done {level last : Nat} {led : Bool} : IsLevel locals level last led [] last false
  | atom {level last last' : Nat} {led returned negated : Bool} {operator : Option Operator}
    {atom : Atom} {more : Chain} (hlead : led = true → operator ≠ none)
    (hscope : atom.InScope locals) (hmore : IsLevel locals level last true more last' returned) :
    IsLevel locals level last led (⟨negated, operator, level, .atom atom⟩ :: more) last' returned
  | ret {level last : Nat} {led negated : Bool} {operator : Option Operator}
    (hlead : led = true → operator ≠ none) :
    IsLevel locals level last led [⟨negated, operator, level, .ret⟩] last true
  | group {level last middle last' : Nat} {led returned negated : Bool}
    {operator : Option Operator} {terms more : Chain} (hlead : led = true → operator ≠ none)
    (hgroup : IsLevel locals (last + 1) (last + 1) false terms middle false)
    (hmore : IsLevel locals level middle true more last' returned) :
    IsLevel locals level last led
      (⟨negated, operator, level, .group (last + 1)⟩ :: (terms ++ more)) last' returned
  /-- A `RETURN` in a group ends the levels around it. -/
  | groupReturned {level last last' : Nat} {led negated : Bool} {operator : Option Operator}
    {terms : Chain} (hlead : led = true → operator ≠ none)
    (hgroup : IsLevel locals (last + 1) (last + 1) false terms last' true) :
    IsLevel locals level last led
      (⟨negated, operator, level, .group (last + 1)⟩ :: terms) last' true

namespace IsLevel

variable {locals : List Text} {level last last' : Nat} {led returned : Bool} {terms : Chain}

/-- Levels are only ever taken, never given back. -/
theorem last_le (h : IsLevel locals level last led terms last' returned) : last ≤ last' := by
  induction h with
  | done => exact Nat.le_refl _
  | atom _ _ _ ih => exact ih
  | ret _ => exact Nat.le_refl _
  | group _ _ _ ihgroup ihmore => omega
  | groupReturned _ _ ihgroup => omega

/-- The levels opened have the numbers behind those taken. -/
theorem opened (h : IsLevel locals level last led terms last' returned) :
    terms.filterMap Term.opens? = List.range' (last + 1) (last' - last) := by
  induction h with
  | done => simp
  | atom _ _ _ ih => rw [List.filterMap_cons, Term.opens?_atom, ih]
  | ret _ => simp
  | @group level last middle last' _ _ _ _ terms more _ hgroup hmore ihgroup ihmore =>
    have hmiddle := hgroup.last_le
    have hlast := hmore.last_le
    -- The group takes one number itself, then those inside it, then those behind it.
    have hcount : last' - last = (middle - (last + 1) + (last' - middle)) + 1 := by omega
    have hstart : middle + 1 = last + 1 + 1 + (middle - (last + 1)) := by omega
    rw [List.filterMap_cons, Term.opens?_group, List.filterMap_append, ihgroup, ihmore, hcount,
      List.range'_succ, hstart, List.range'_append_1]
  | @groupReturned level last last' _ _ _ terms _ hgroup ihgroup =>
    have hlast := hgroup.last_le
    have hcount : last' - last = (last' - (last + 1)) + 1 := by omega
    rw [List.filterMap_cons, Term.opens?_group, ihgroup, hcount, List.range'_succ]

/-- The terms are on the level or on one that is opened in it. -/
theorem level_of_mem (h : IsLevel locals level last led terms last' returned) :
    ∀ term ∈ terms, term.level = level ∨ last < term.level ∧ term.level ≤ last' := by
  induction h with
  | done => simp
  | atom _ _ _ ih => simpa using ih
  | ret _ => simp
  | group _ hgroup hmore ihgroup ihmore =>
    have hmiddle := hgroup.last_le
    have hlast := hmore.last_le
    intro term hterm
    rcases List.mem_cons.mp hterm with rfl | hterm
    · exact Or.inl rfl
    · rcases List.mem_append.mp hterm with hterm | hterm
      · have := ihgroup term hterm
        omega
      · have := ihmore term hterm
        omega
  | groupReturned _ hgroup ihgroup =>
    have hlast := hgroup.last_le
    intro term hterm
    rcases List.mem_cons.mp hterm with rfl | hterm
    · exact Or.inl rfl
    · have := ihgroup term hterm
      omega

/-- The terms of a level are in scope. -/
theorem inScope (h : IsLevel locals level last led terms last' returned) :
    ∀ term ∈ terms, term.InScope locals := by
  induction h with
  | done => simp
  | atom _ hscope _ ih =>
    refine List.forall_mem_cons.mpr ⟨fun atom hatom => ?_, ih⟩
    obtain rfl := Factor.atom.inj hatom
    exact hscope
  | ret _ => exact List.forall_mem_singleton.mpr fun _ hatom => nomatch hatom
  | group _ _ _ ihgroup ihmore =>
    exact List.forall_mem_cons.mpr
      ⟨fun _ hatom => (nomatch hatom), List.forall_mem_append.mpr ⟨ihgroup, ihmore⟩⟩
  | groupReturned _ _ ihgroup =>
    exact List.forall_mem_cons.mpr ⟨fun _ hatom => (nomatch hatom), ihgroup⟩

/-- The terms of a level that is opened stand behind the term that opens it. -/
theorem behind_opener (h : IsLevel locals level last led terms last' returned) :
    ∀ front term back, terms = front ++ term :: back →
      term.level = level ∨ ∃ opener ∈ front, opener.opens? = some term.level := by
  -- An opener in some of the terms is one in all of them.
  have hlater {level inner : Nat} {front front' : Chain} (hfront : ∀ term ∈ front, term ∈ front')
      (h : inner = level ∨ ∃ opener ∈ front, opener.opens? = some inner) :
      inner = level ∨ ∃ opener ∈ front', opener.opens? = some inner :=
    h.imp_right fun ⟨opener, hmem, hopens⟩ => ⟨opener, hfront opener hmem, hopens⟩
  -- The terms of a group are on its level, or behind an opener of their own.
  have hgroup {level inner : Nat} {opener : Term} {front : Chain}
      (hopener : opener.opens? = some inner)
      (h : level = inner ∨ ∃ found ∈ front, found.opens? = some level) :
      ∃ found ∈ opener :: front, found.opens? = some level := by
    rcases h with rfl | ⟨found, hmem, hopens⟩
    · exact ⟨opener, List.mem_cons_self, hopener⟩
    · exact ⟨found, List.mem_cons_of_mem _ hmem, hopens⟩
  induction h with
  | done => simp
  | atom _ _ _ ih =>
    refine forall_split_cons (Or.inl rfl) fun front term back hsplit => ?_
    exact hlater (fun _ => List.mem_cons_of_mem _) (ih front term back hsplit)
  | ret _ => exact forall_split_cons (Or.inl rfl) (by simp)
  | group _ _ _ ihgroup ihmore =>
    refine forall_split_cons (Or.inl rfl) fun front term back hsplit => ?_
    rcases append_eq_append_cons hsplit with ⟨back', hterms, -⟩ | ⟨front', rfl, hmore⟩
    · exact Or.inr (hgroup Term.opens?_group (ihgroup front term back' hterms))
    · exact hlater (fun _ hmem => List.mem_cons_of_mem _ (List.mem_append_right _ hmem))
        (ihmore front' term back hmore)
  | groupReturned _ _ ihgroup =>
    refine forall_split_cons (Or.inl rfl) fun front term back hsplit => ?_
    exact Or.inr (hgroup Term.opens?_group (ihgroup front term back hsplit))

/-- A level has a higher number than the level that it is opened on. -/
theorem level_lt (h : IsLevel locals level last led terms last' returned) (hlevel : level ≤ last) :
    ∀ term ∈ terms, ∀ inner, term.opens? = some inner → term.level < inner := by
  induction h with
  | done => simp
  | atom _ _ _ ih => exact List.forall_mem_cons.mpr ⟨fun _ hopens => (nomatch hopens), ih hlevel⟩
  | ret _ => exact List.forall_mem_singleton.mpr fun _ hopens => nomatch hopens
  | group _ hgroup _ ihgroup ihmore =>
    have hmiddle := hgroup.last_le
    refine List.forall_mem_cons.mpr ⟨fun inner hopens => ?_,
      List.forall_mem_append.mpr ⟨ihgroup (Nat.le_refl _), ihmore (by omega)⟩⟩
    obtain rfl := Option.some.inj hopens
    exact Nat.lt_succ_of_le hlevel
  | groupReturned _ _ ihgroup =>
    refine List.forall_mem_cons.mpr ⟨fun inner hopens => ?_, ihgroup (Nat.le_refl _)⟩
    obtain rfl := Option.some.inj hopens
    exact Nat.lt_succ_of_le hlevel

/-- Where the first term has an operator, every term of the level has one. -/
theorem operator_ne_none (h : IsLevel locals level last led terms last' returned)
    (hlevel : level ≤ last) (hled : led = true) :
    ∀ term ∈ terms, term.level = level → term.operator ≠ none := by
  induction h with
  | done => simp
  | atom hlead _ _ ih =>
    exact List.forall_mem_cons.mpr ⟨fun _ => hlead hled, ih hlevel rfl⟩
  | ret hlead => exact List.forall_mem_singleton.mpr fun _ => hlead hled
  | group hlead hgroup _ _ ihmore =>
    have hmiddle := hgroup.last_le
    refine List.forall_mem_cons.mpr ⟨fun _ => hlead hled, List.forall_mem_append.mpr
      ⟨fun term hterm hsame => ?_, ihmore (by omega) rfl⟩⟩
    -- The terms of the group are on higher levels.
    have := hgroup.level_of_mem term hterm
    omega
  | groupReturned hlead hgroup _ =>
    refine List.forall_mem_cons.mpr ⟨fun _ => hlead hled, fun term hterm hsame => ?_⟩
    have := hgroup.level_of_mem term hterm
    omega

/-- No term stands in front of a term of the same level without operator. -/
theorem pairwise_operator (h : IsLevel locals level last led terms last' returned)
    (hlevel : level ≤ last) :
    terms.Pairwise fun earlier term => term.operator = none → earlier.level ≠ term.level := by
  induction h with
  | done => exact .nil
  | atom _ _ hmore ih =>
    refine .cons (fun term hterm hnone hsame => ?_) (ih hlevel)
    exact hmore.operator_ne_none hlevel rfl term hterm hsame.symm hnone
  | ret _ => exact List.pairwise_singleton _ _
  | group _ hgroup hmore ihgroup ihmore =>
    have hmiddle := hgroup.last_le
    have hbehind := hmore.operator_ne_none (by omega) rfl
    refine .cons (List.forall_mem_append.mpr ⟨fun term hterm _ hsame => ?_,
      fun term hterm hnone hsame => hbehind term hterm hsame.symm hnone⟩)
      (List.pairwise_append.mpr ⟨ihgroup (Nat.le_refl _), ihmore (by omega),
        fun earlier hearlier term hterm hnone hsame => ?_⟩)
    · have := hgroup.level_of_mem term hterm
      simp only at hsame
      omega
    · -- The levels of the group are not used behind it.
      have := hgroup.level_of_mem earlier hearlier
      have := hmore.level_of_mem term hterm
      omega
  | groupReturned _ hgroup ihgroup =>
    refine .cons (fun term hterm _ hsame => ?_) (ihgroup (Nat.le_refl _))
    have := hgroup.level_of_mem term hterm
    simp only at hsame
    omega

/-- A level that does not return has no `RETURN` in it. -/
theorem factor_ne_ret (h : IsLevel locals level last led terms last' returned)
    (hreturned : returned = false) : ∀ term ∈ terms, term.factor ≠ .ret := by
  induction h with
  | done => simp
  | atom _ _ _ ih => exact List.forall_mem_cons.mpr ⟨fun hret => (nomatch hret), ih hreturned⟩
  | ret _ => cases hreturned
  | group _ _ _ ihgroup ihmore =>
    exact List.forall_mem_cons.mpr ⟨fun hret => (nomatch hret),
      List.forall_mem_append.mpr ⟨ihgroup rfl, ihmore hreturned⟩⟩
  | groupReturned _ _ _ => cases hreturned

/-- No term stands behind a `RETURN`. -/
theorem pairwise_ret (h : IsLevel locals level last led terms last' returned) :
    terms.Pairwise fun earlier _ => earlier.factor ≠ .ret := by
  induction h with
  | done => exact .nil
  | atom _ _ _ ih => exact .cons (fun _ _ hret => nomatch hret) ih
  | ret _ => exact List.pairwise_singleton _ _
  | group _ hgroup _ ihgroup ihmore =>
    exact .cons (fun _ _ hret => nomatch hret) (List.pairwise_append.mpr
      ⟨ihgroup, ihmore, fun earlier hearlier _ _ => hgroup.factor_ne_ret rfl earlier hearlier⟩)
  | groupReturned _ _ ihgroup => exact .cons (fun _ _ hret => nomatch hret) ihgroup

/-- A chain of that form keeps all promises. -/
theorem wellFormed {chain : Chain} (h : IsLevel locals 0 0 led chain last' returned)
    (hne : chain ≠ []) : chain.WellFormed locals where
  ne_nil := hne
  inScope := h.inScope
  opened := ⟨last', h.opened⟩
  behind_opener front term back hsplit hpos :=
    (h.behind_opener front term back hsplit).resolve_left (Nat.ne_of_gt hpos)
  level_lt := h.level_lt (Nat.le_refl 0)
  first_of_level front term back hsplit hnone earlier hearlier := by
    have hpairwise := h.pairwise_operator (Nat.le_refl 0)
    rw [hsplit] at hpairwise
    exact (List.pairwise_append.mp hpairwise).2.2 earlier hearlier term List.mem_cons_self hnone
  ret_last front term back hsplit hret := by
    have hpairwise := h.pairwise_ret
    rw [hsplit] at hpairwise
    have hbehind := (List.pairwise_cons.mp (List.pairwise_append.mp hpairwise).2.1).1
    exact List.eq_nil_iff_forall_not_mem.mpr fun later hlater => hbehind later hlater hret

end IsLevel

end SignalScript
