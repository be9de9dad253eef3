import SignalScript.Proofs.Expression.AssignmentForm
import SignalScript.Proofs.Expression.ChainValue

/-!
# The tree of a flat chain

A flat chain that was read from a text, whatever its errors, has the shape of a tree: the terms of
a level stand in a row, and behind the term of a group stand the terms of the level that it opens.
The tree determines the chain, since the levels are numbered in the order in which they are opened.

## Main definitions

* `LevelTree` — the terms of a level, with those of the groups in it
* `LevelTree.terms` — the flat terms of a tree
* `Atom.IsTerm` — an operand or call that stands in a chain

## Main results

* `Chain.exists_tree` — every chain that is read is that of a tree
* `holdsLevels_inner`, `holdsLevels_more` — every group has levels of its own
* `Atom.IsTerm.nonneg` — a number that stands in a chain has no sign
-/

namespace SignalScript

/-- The terms of a level, with those of the groups in it. -/
inductive LevelTree
  | done
  | atom (negated : Bool) (operator : Option Operator) (atom : Atom) (more : LevelTree)
  | ret (negated : Bool) (operator : Option Operator)
  | group (negated : Bool) (operator : Option Operator) (inner more : LevelTree)

namespace LevelTree

/-- The number of groups. -/
def groups : LevelTree → Nat
  | done => 0
  | atom _ _ _ more => more.groups
  | ret _ _ => 0
  | group _ _ inner more => 1 + inner.groups + more.groups

/-- The flat terms, on level `level` and on new levels behind `last`. -/
def terms (level last : Nat) : LevelTree → Chain
  | done => []
  | atom negated operator a more => ⟨negated, operator, level, .atom a⟩ :: more.terms level last
  | ret negated operator => [⟨negated, operator, level, .ret⟩]
  | group negated operator inner more =>
    ⟨negated, operator, level, .group (last + 1)⟩ ::
      (inner.terms (last + 1) (last + 1) ++ more.terms level (last + 1 + inner.groups))

/-- Every term has an operator, except perhaps the first of a level, if `led` does not hold. -/
def IsLed (led : Bool) : LevelTree → Prop
  | done => True
  | atom _ operator _ more => (led = true → operator ≠ none) ∧ more.IsLed true
  | ret _ operator => led = true → operator ≠ none
  | group _ operator inner more =>
    (led = true → operator ≠ none) ∧ inner.IsLed false ∧ more.IsLed true

/-- The operands and calls, in the order of the text. -/
def atoms : LevelTree → List Atom
  | done => []
  | atom _ _ a more => a :: more.atoms
  | ret _ _ => []
  | group _ _ inner more => inner.atoms ++ more.atoms

/-- The operands and calls of a tree stand in its terms. -/
theorem exists_term_of_mem_atoms {tree : LevelTree} {a : Atom} (h : a ∈ tree.atoms)
    (level last : Nat) : ∃ term ∈ tree.terms level last, term.factor = .atom a := by
  induction tree generalizing level last with
  | done => cases h
  | atom negated operator b more ih =>
    rcases List.mem_cons.mp h with rfl | h
    · exact ⟨_, List.mem_cons_self, rfl⟩
    · obtain ⟨term, hterm, hfactor⟩ := ih h level last
      exact ⟨term, List.mem_cons_of_mem _ hterm, hfactor⟩
  | ret negated operator => cases h
  | group negated operator inner more ihinner ihmore =>
    rcases List.mem_append.mp h with h | h
    · obtain ⟨term, hterm, hfactor⟩ := ihinner h (last + 1) (last + 1)
      exact ⟨term, List.mem_cons_of_mem _ (List.mem_append_left _ hterm), hfactor⟩
    · obtain ⟨term, hterm, hfactor⟩ := ihmore h level (last + 1 + inner.groups)
      exact ⟨term, List.mem_cons_of_mem _ (List.mem_append_right _ hterm), hfactor⟩

/-- The terms are on the level or on one that is opened in it. -/
theorem level_of_mem_terms {tree : LevelTree} {level last : Nat} {term : Term}
    (h : term ∈ tree.terms level last) :
    term.level = level ∨ last < term.level ∧ term.level ≤ last + tree.groups := by
  induction tree generalizing level last with
  | done => cases h
  | atom negated operator a more ih =>
    rcases List.mem_cons.mp h with rfl | h
    · exact .inl rfl
    · exact ih h
  | ret negated operator => exact .inl (List.mem_singleton.mp h ▸ rfl)
  | group negated operator inner more ihinner ihmore =>
    rw [groups]
    rcases List.mem_cons.mp h with rfl | h
    · exact .inl rfl
    · rcases List.mem_append.mp h with h | h
      · have := ihinner h
        omega
      · have := ihmore h
        omega

/-- Every group has a term that stands for it. -/
theorem groups_le (tree : LevelTree) (level last : Nat) :
    tree.groups ≤ (tree.terms level last).length := by
  induction tree generalizing level last with
  | done => exact Nat.zero_le _
  | atom negated operator a more ih => exact Nat.le_succ_of_le (ih level last)
  | ret negated operator => exact Nat.zero_le _
  | group negated operator inner more ihinner ihmore =>
    have := ihinner (last + 1) (last + 1)
    have := ihmore level (last + 1 + inner.groups)
    rw [groups, terms, List.length_cons, List.length_append]
    omega

end LevelTree

/-! ### Levels of a group -/

section Levels

open Written (HoldsLevels)

variable {whole : Chain} {term : Term} {level last : Nat} {inner more : LevelTree}

/-- Inside a group every level is above the one around it. -/
theorem atLevel_inner_eq_nil (h : level ≤ last) (inner : LevelTree) :
    atLevel level (inner.terms (last + 1) (last + 1)) = [] := by
  apply atLevel_eq_nil
  intro term hmem
  have := LevelTree.level_of_mem_terms hmem
  omega

/-- The terms behind a group use none of its levels. -/
theorem holdsLevels_inner (hlevel : level ≤ last) (hterm : term.level = level)
    (h : HoldsLevels whole last (last + (1 + inner.groups + more.groups))
      (term :: (inner.terms (last + 1) (last + 1) ++
        more.terms level (last + 1 + inner.groups)))) :
    atLevel (last + 1) whole = atLevel (last + 1) (inner.terms (last + 1) (last + 1)) ∧
      HoldsLevels whole (last + 1) (last + 1 + inner.groups)
        (inner.terms (last + 1) (last + 1)) := by
  have hpart (id : Nat) (hlow : last < id) (hhigh : id ≤ last + 1 + inner.groups) :
      atLevel id whole = atLevel id (inner.terms (last + 1) (last + 1)) := by
    have hmore : atLevel id (more.terms level (last + 1 + inner.groups)) = [] := by
      apply atLevel_eq_nil
      intro term hmem
      have := LevelTree.level_of_mem_terms hmem
      omega
    rw [h id hlow (by omega), atLevel_cons_of_ne (by omega), atLevel_append, hmore,
      List.append_nil]
  exact ⟨hpart _ (by omega) (by omega), fun id hlow hhigh => hpart id (by omega) hhigh⟩

/-- Nor does the group use the levels of the terms behind it. -/
theorem holdsLevels_more (hlevel : level ≤ last) (hterm : term.level = level)
    (h : HoldsLevels whole last (last + (1 + inner.groups + more.groups))
      (term :: (inner.terms (last + 1) (last + 1) ++
        more.terms level (last + 1 + inner.groups)))) :
    HoldsLevels whole (last + 1 + inner.groups) (last + 1 + inner.groups + more.groups)
      (more.terms level (last + 1 + inner.groups)) := by
  intro id hlow hhigh
  have hinner : atLevel id (inner.terms (last + 1) (last + 1)) = [] := by
    apply atLevel_eq_nil
    intro term hmem
    have := LevelTree.level_of_mem_terms hmem
    omega
  rw [h id (by omega) (by omega), atLevel_cons_of_ne (by omega), atLevel_append, hinner,
    List.nil_append]

end Levels

/-! ### Chains that are read -/

/-- The atom was read from a token of a chain. -/
def Atom.IsTerm (locals : List Text) (atom : Atom) : Prop :=
  ∃ text, (Atom.read locals (Text.trim (splitToken 0 text).1)).value = some atom

section Reading

variable {locals : List Text} {source text : Text} {level last last' : Nat}
  {led returned : Bool} {terms : Chain}

/-- Terms in the form of a level are those of a tree. -/
theorem IsLevel.exists_tree (h : IsLevel locals level last led terms last' returned) :
    ∃ tree : LevelTree, tree.IsLed led ∧ terms = tree.terms level last ∧
      last' = last + tree.groups := by
  induction h with
  | done => exact ⟨.done, trivial, rfl, rfl⟩
  | @atom level last last' led returned negated operator atom more hlead _ _ ih =>
    obtain ⟨tree, hled, rfl, rfl⟩ := ih
    exact ⟨.atom negated operator atom tree, ⟨hlead, hled⟩, rfl, rfl⟩
  | @ret level last led negated operator hlead => exact ⟨.ret negated operator, hlead, rfl, rfl⟩
  | @group level last middle last' led returned negated operator terms more hlead _ _ ihgroup
      ihmore =>
    obtain ⟨inner, hinner, rfl, rfl⟩ := ihgroup
    obtain ⟨tree, hmore, rfl, rfl⟩ := ihmore
    exact ⟨.group negated operator inner tree, ⟨hlead, hinner, hmore⟩, rfl,
      by rw [LevelTree.groups]; omega⟩
  | @groupReturned level last last' led negated operator terms hlead _ ihgroup =>
    obtain ⟨inner, hinner, rfl, rfl⟩ := ihgroup
    exact ⟨.group negated operator inner .done, ⟨hlead, hinner, trivial⟩,
      by rw [LevelTree.terms, LevelTree.terms, List.append_nil],
      by rw [LevelTree.groups, LevelTree.groups]; omega⟩

/-- The operands and calls in what is read were read from tokens. -/
theorem Reads.isTerm {level last : Nat} {result : Level} {notes : List Cause} {term : Term}
    {atom : Atom} (h : Reads locals source level last text result notes)
    (hterm : term ∈ result.terms) (hfactor : term.factor = .atom atom) : atom.IsTerm locals := by
  induction h with
  | done => cases hterm
  | atom _ _ hsplit _ _ hatom _ ih =>
    rcases List.mem_cons.mp hterm with rfl | hterm
    · obtain rfl := Factor.atom.inj hfactor
      obtain rfl := congrArg Prod.fst hsplit
      exact ⟨_, congrArg Noted.value hatom⟩
    · exact ih hterm
  | ret _ _ _ _ =>
    rw [List.mem_singleton.mp hterm] at hfactor
    cases hfactor
  | group _ _ _ _ _ ihinner ihmore =>
    rcases List.mem_cons.mp hterm with rfl | hterm
    · cases hfactor
    · exact (List.mem_append.mp hterm).elim ihinner ihmore
  | groupReturned _ _ _ _ ihinner =>
    rcases List.mem_cons.mp hterm with rfl | hterm
    · cases hfactor
    · exact ihinner hterm

/-- Every chain that is read is that of a tree, whose operands and calls were read from tokens. -/
theorem Chain.exists_tree {chain : Chain} (h : (Chain.read locals text).value = some chain) :
    ∃ tree : LevelTree, tree.IsLed false ∧ chain = tree.terms 0 0 ∧
      ∀ atom ∈ tree.atoms, atom.IsTerm locals := by
  obtain ⟨result, hrun, rfl⟩ := Chain.exists_reads h
  have hform : IsLevel locals 0 0 false _ _ _ := hrun.isLevel fun hl => by cases hl
  obtain ⟨tree, hled, hterms, -⟩ := hform.exists_tree
  refine ⟨tree, hled, hterms, fun atom hatom => ?_⟩
  obtain ⟨term, hterm, hfactor⟩ := LevelTree.exists_term_of_mem_atoms hatom 0 0
  rw [← hterms] at hterm
  exact hrun.isTerm hterm hfactor

/-! ### Numbers in a chain -/

theorem Text.mem_of_mem_dropLeading {c d : Char} (h : c ∈ Text.dropLeading d text) : c ∈ text := by
  cases text with
  | nil => exact h
  | cons e rest =>
    rw [Text.dropLeading] at h
    split at h
    · exact List.mem_cons_of_mem _ h
    · exact h

theorem Text.mem_dropLeading {c d : Char} (hne : c ≠ d) (h : c ∈ text) :
    c ∈ Text.dropLeading d text := by
  cases text with
  | nil => exact h
  | cons e rest =>
    rw [Text.dropLeading]
    split
    · rename_i heq
      exact (List.mem_cons.mp h).resolve_left (heq ▸ hne)
    · exact h

/-- Where no bracket opens or closes, an operator ends a token. -/
theorem not_isSymbol_of_mem_splitToken (hopen : '(' ∉ (splitToken 0 text).1)
    (hclose : ')' ∉ (splitToken 0 text).1) :
    ∀ c ∈ (splitToken 0 text).1, Operator.isSymbol c = false := by
  intro c hc
  by_contra hsymbol
  obtain ⟨op, hop⟩ := Option.isSome_iff_exists.mp (Bool.not_eq_false _ ▸ hsymbol)
  obtain rfl := Operator.symbol_of_ofChar? hop
  obtain ⟨before, after, htoken⟩ := List.append_of_mem hc
  have hdepth := depth_ne_zero_of_mem_splitToken htoken
  rw [htoken] at hopen hclose
  have hopened := List.count_eq_zero.mpr fun hmem => hopen (List.mem_append_left _ hmem)
  have hclosed := List.count_eq_zero.mpr fun hmem => hclose (List.mem_append_left _ hmem)
  rw [hopened, hclosed] at hdepth
  exact hdepth rfl

/-- A constant without a family is a number that stands in the text. -/
theorem readInt32?_of_known? {name : Text} {value : Int32}
    (h : Operand.known? locals name = some (.constant value)) :
    Decimal.readInt32? name = some value := by
  unfold Operand.known? at h
  split at h
  · rename_i hnumber
    obtain rfl := Operand.constant.inj (Option.some.inj h)
    exact hnumber
  · split at h
    · cases h
    · split at h
      · cases h
      · obtain ⟨pair, -, hpair⟩ := Option.map_eq_some_iff.mp h
        cases hpair

/-- A negative constant was read as one, and is not the zero that stands for an unknown name. -/
theorem known?_of_read {value : Int32} (hneg : value.toInt < 0)
    (h : (Operand.read locals text).value = .constant value) :
    Operand.known? locals (Text.trim (Text.dropLeading '#' text)) = some (.constant value) := by
  rw [Operand.read] at h
  split at h
  · rename_i found hknown
    rw [hknown, show found = .constant value from h]
  · obtain rfl := Operand.constant.inj h
    exact absurd hneg (by decide)

/-- A number that stands in a chain has no minus sign: the sign would be an operator. -/
theorem Atom.IsTerm.nonneg {value : Int32}
    (h : Atom.IsTerm locals (.operand (.constant value))) : 0 ≤ value.toInt := by
  obtain ⟨text, hread⟩ := h
  rw [Atom.read] at hread
  split at hread
  · obtain ⟨call, -, hcall⟩ := Option.map_eq_some_iff.mp hread
    cases hcall
  · rename_i hopen
    refine Int.not_lt.mp fun hneg => ?_
    have hknown := known?_of_read hneg (Atom.operand.inj (Option.some.inj hread))
    obtain ⟨digits, hname, hdigits⟩ :=
      Decimal.exists_of_readInt32?_neg (readInt32?_of_known? hknown) hneg
    -- The sign stands in the token, and no bracket does.
    have hclose : ')' ∉ (splitToken 0 text).1 := by
      intro hmem
      have hmark : ')' ≠ '#' := by decide
      have hmem := Text.mem_trim rfl (Text.mem_dropLeading hmark (Text.mem_trim rfl hmem))
      rw [hname] at hmem
      rcases List.mem_cons.mp hmem with hsign | hdigit
      · cases hsign
      · cases hdigits _ hdigit
    have hsign : '-' ∈ (splitToken 0 text).1 := by
      have hmem : '-' ∈ Text.trim (Text.dropLeading '#' (Text.trim (splitToken 0 text).1)) := by
        rw [hname]
        exact List.mem_cons_self
      exact Text.mem_of_mem_trim (Text.mem_of_mem_dropLeading (Text.mem_of_mem_trim hmem))
    have hplain := not_isSymbol_of_mem_splitToken (fun hmem => hopen (Text.mem_trim rfl hmem))
      hclose _ hsign
    cases hplain

end Reading

end SignalScript
