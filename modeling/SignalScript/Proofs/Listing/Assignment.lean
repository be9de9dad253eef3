import SignalScript.Proofs.Listing.Chain
import SignalScript.Proofs.Statement.Gathering

/-!
# Listings of assignments

An assignment is listed with the name of its target and an equals sign, which stands in no chain.
A line that begins an arm is no assignment, since no operator is a bracket.

## Main definitions

* `isListed`, `isLineChar` — the characters of chains and of lines in a listing
* `Target.name?` — the name of a target

## Main results

* `Assignment.listing_injective` — no two assignments that were read have the same listing, except
  for their lines
* `Assignment.listing_ne_if` — an assignment is not listed like the head of an arm
-/

namespace SignalScript

open Text

/-- The character stands in listings of chains. -/
def isListed (c : Char) : Bool := isTokenChar c || c ∈ " !(),+*/%".toList

/-- The character stands in listings of assignments and conditions. -/
def isLineChar (c : Char) : Bool := isListed c || c ∈ "<>=".toList

theorem isLineChar_of_isListed {c : Char} (h : isListed c = true) : isLineChar c = true := by
  simp [isLineChar, h]

variable {locals : List Text}

/-! ### Characters -/

section Characters

theorem isListed_of_isToken {token : Text} (h : IsToken token) :
    ∀ c ∈ token, isListed c = true := by
  intro c hc
  simp [isListed, h.isTokenChar hc]

/-- An atom that was read is listed on one line. -/
theorem Atom.isListed_listing {atom : Atom} (hlocals : AreListable locals)
    (h : atom.ReadsBack locals) : ∀ c ∈ atom.listing locals, isListed c = true := by
  have hoperand {o : Operand} (h : o.ReadsBack locals) :
      ∀ c ∈ o.listing locals, isListed c = true :=
    isListed_of_isToken (Operand.isToken_listing hlocals.isIdentifier h)
  match atom, h with
  | .operand o, h => exact hoperand h
  | .call c, h =>
    have hseparator : ∀ c ∈ ", ".toList, isListed c = true := List.all_eq_true.mp rfl
    have harguments := forall_mem_joinedBy hseparator
      (List.forall_mem_map.mpr fun o ho => hoperand (h o ho))
    rw [Atom.listing, ← List.append_nil (c.listing locals), Call.listing_append]
    refine List.forall_mem_append.mpr ⟨isListed_of_isToken (isWord_functionName _).isToken, ?_⟩
    exact List.forall_mem_cons.mpr ⟨rfl, List.forall_mem_append.mpr
      ⟨harguments, List.all_eq_true.mp rfl⟩⟩

theorem isListed_operatorListing (isFirst : Bool) (operator : Option Operator) :
    ∀ c ∈ operatorListing isFirst operator, isListed c = true := by
  cases operator with
  | none => simp [operatorListing]
  | some op => cases isFirst <;> cases op <;> exact List.all_eq_true.mp rfl

theorem isListed_negationListing (negated : Bool) :
    ∀ c ∈ negationListing negated, isListed c = true := by
  cases negated <;> exact List.all_eq_true.mp rfl

/-- So is a level of a chain. -/
theorem LevelTree.isListed_text {tree : LevelTree} (hlocals : AreListable locals)
    (hterms : tree.HasTerms locals) (isFirst : Bool) :
    ∀ c ∈ tree.text locals isFirst, isListed c = true := by
  -- In front of a factor stand an operator and a negation at most.
  have hhead {isFirst negated : Bool} {operator : Option Operator} {text : Text}
      (h : ∀ c ∈ text, isListed c = true) :
      ∀ c ∈ operatorListing isFirst operator ++ (negationListing negated ++ text),
        isListed c = true :=
    List.forall_mem_append.mpr ⟨isListed_operatorListing isFirst operator,
      List.forall_mem_append.mpr ⟨isListed_negationListing negated, h⟩⟩
  induction tree generalizing isFirst with
  | done => simp [text]
  | atom negated operator a more ih =>
    have ha := Atom.isListed_listing hlocals (hterms a List.mem_cons_self).readsBack
    exact hhead (List.forall_mem_append.mpr
      ⟨ha, ih (fun b hb => hterms b (List.mem_cons_of_mem _ hb)) false⟩)
  | ret negated operator => exact hhead (List.all_eq_true.mp rfl)
  | group negated operator inner more ihinner ihmore =>
    have hinner := ihinner (fun b hb => hterms b (List.mem_append_left _ hb)) true
    have hmore := ihmore (fun b hb => hterms b (List.mem_append_right _ hb)) false
    exact hhead (List.forall_mem_cons.mpr ⟨rfl, List.forall_mem_append.mpr
      ⟨hinner, List.forall_mem_cons.mpr ⟨rfl, hmore⟩⟩⟩)

end Characters

/-! ### Targets -/

/-- The name of a target. -/
def Target.name? (locals : List Text) : Target → Option Text
  | .external v => some v.name.toList
  | .slot index => some (slotName locals index)
  | .discard => none

/-- The name of the target stands for it. -/
def Target.ReadsBack (locals : List Text) (target : Target) : Prop :=
  ∀ name, target.name? locals = some name → named? locals name = some target

section Targets

variable {target other : Target} {name text behind : Text}

/-- A target that was found by a name has this name in the listing. -/
theorem Target.readsBack_named? (h : named? locals name = some target) :
    target.ReadsBack locals := by
  intro found hfound
  have hsame := h
  unfold named? at h
  split at h
  · obtain rfl := Option.some.inj h
    obtain rfl := Option.some.inj hfound
    rw [named?, ExternalVariable.named?_name]
  · obtain ⟨index, hslot, rfl⟩ := Option.map_eq_some_iff.mp h
    obtain rfl := Option.some.inj hfound
    rwa [slotName_of_slot? hslot]

theorem Target.readsBack_sides (h : (Assignment.sides locals text).value = some (target, behind)) :
    target.ReadsBack locals := by
  unfold Assignment.sides at h
  split at h
  · obtain ⟨rfl, -⟩ := Prod.mk.inj (Option.some.inj h)
    intro name hname
    cases hname
  · split at h
    · cases h
    · split at h
      · rename_i hnamed
        obtain ⟨rfl, -⟩ := Prod.mk.inj (Option.some.inj h)
        exact readsBack_named? hnamed
      · cases h
  · cases h

/-- The name of a target is a word. -/
theorem Target.isWord_name (hlocals : AreListable locals) (h : target.ReadsBack locals)
    (hname : target.name? locals = some name) : IsWord name := by
  have hscope := inScope_named? (h name hname)
  cases target with
  | external v =>
    obtain rfl := Option.some.inj hname
    cases v <;> decide
  | slot index =>
    obtain rfl := Option.some.inj hname
    exact Operand.isWord_slotName hlocals.isIdentifier hscope
  | discard => cases hname

end Targets

/-! ### Assignments -/

namespace Assignment

variable {assignment other : Assignment}

/-- An assignment that was read has a target with a name of its own, and a chain that was read. -/
theorem IsRead.parts (h : assignment.IsRead locals) :
    assignment.target.ReadsBack locals ∧
      ∃ source, (Chain.read locals source).value = some assignment.chain := by
  obtain ⟨line, text, h⟩ := h
  rw [read, Noted.value_bind] at h
  split at h
  · cases h
  · rename_i hsides
    rw [Noted.value_bind] at h
    split at h
    · cases h
    · cases h
    · rename_i chain _ hchain
      obtain rfl := Option.some.inj h
      exact ⟨Target.readsBack_sides hsides, _, hchain⟩

/-- The listing, with the name of the target in front if it has one. -/
theorem listing_of_name? {name : Text} (h : assignment.target.name? locals = some name) :
    assignment.listing locals =
      name ++ (" = ".toList ++ Chain.listing locals assignment.chain 0) := by
  rw [listing]
  split <;> rename_i htarget <;> rw [htarget] at h
  · obtain rfl := Option.some.inj h
    exact List.append_assoc _ _ _
  · obtain rfl := Option.some.inj h
    exact List.append_assoc _ _ _
  · cases h

/-- An assignment without a name for its target has none, and is listed as its chain. -/
theorem listing_of_discard (h : assignment.target.name? locals = none) :
    assignment.target = .discard ∧
      assignment.listing locals = Chain.listing locals assignment.chain 0 := by
  rw [listing]
  split <;> rename_i htarget <;> rw [htarget] at h
  · cases h
  · cases h
  · exact ⟨htarget, rfl⟩

/-- The chain of an assignment is listed without an equals sign. -/
theorem IsRead.isListed_chain (hlocals : AreListable locals) (h : assignment.IsRead locals) :
    ∀ c ∈ Chain.listing locals assignment.chain 0, isListed c = true := by
  obtain ⟨-, source, hsource⟩ := h.parts
  obtain ⟨tree, -, hchain, hterms⟩ := Chain.exists_tree hsource
  rw [hchain, listing_terms]
  exact LevelTree.isListed_text hlocals hterms true

/-- Except for their lines, assignments that were read are determined by their listings. -/
theorem listing_injective (hlocals : AreListable locals) (h : assignment.IsRead locals)
    (hother : other.IsRead locals)
    (hlisting : assignment.listing locals = other.listing locals) :
    assignment.target = other.target ∧ assignment.chain = other.chain := by
  obtain ⟨htarget, source, hsource⟩ := h.parts
  obtain ⟨htarget', source', hsource'⟩ := hother.parts
  -- The first equals sign stands behind the target, if there is one.
  have hequals {a b : Assignment} {name : Text} (hb : b.IsRead locals)
      (hname : a.target.name? locals = some name) (hnone : b.target.name? locals = none) :
      a.listing locals ≠ b.listing locals := by
    intro heq
    have hmem : '=' ∈ b.listing locals := by
      rw [← heq, listing_of_name? hname]
      simp
    rw [(listing_of_discard hnone).2] at hmem
    cases hb.isListed_chain hlocals _ hmem
  cases hname : assignment.target.name? locals with
  | none =>
    cases hname' : other.target.name? locals with
    | none =>
      obtain ⟨hdiscard, hchain⟩ := listing_of_discard hname
      obtain ⟨hdiscard', hchain'⟩ := listing_of_discard hname'
      rw [hchain, hchain'] at hlisting
      exact ⟨hdiscard.trans hdiscard'.symm,
        Chain.listing_injective hlocals hsource hsource' hlisting⟩
    | some name' => exact absurd hlisting.symm (hequals h hname' hname)
  | some name =>
    cases hname' : other.target.name? locals with
    | none => exact absurd hlisting (hequals hother hname hname')
    | some name' =>
      rw [listing_of_name? hname, listing_of_name? hname'] at hlisting
      obtain ⟨rfl, hbehind⟩ := token_unique (Target.isWord_name hlocals htarget hname).isToken
        (Target.isWord_name hlocals htarget' hname').isToken (endsToken_cons rfl)
        (endsToken_cons rfl) hlisting
      have hsame : " = ".toList ++ Chain.listing locals assignment.chain 0 =
          " = ".toList ++ Chain.listing locals other.chain 0 := hbehind
      refine ⟨?_, Chain.listing_injective hlocals hsource hsource' (List.append_cancel_left hsame)⟩
      exact Option.some.inj ((htarget _ hname).symm.trans (htarget' _ hname'))

/-- An assignment that was read is listed on one line. -/
theorem isLineChar_listing (hlocals : AreListable locals) (h : assignment.IsRead locals) :
    ∀ c ∈ assignment.listing locals, isLineChar c = true := by
  have hchain (c : Char) (hc : c ∈ Chain.listing locals assignment.chain 0) : isLineChar c = true :=
    isLineChar_of_isListed (h.isListed_chain hlocals c hc)
  cases hname : assignment.target.name? locals with
  | none =>
    rw [(listing_of_discard hname).2]
    exact hchain
  | some name =>
    have hword := Target.isWord_name hlocals h.parts.1 hname
    rw [listing_of_name? hname]
    refine List.forall_mem_append.mpr ⟨fun c hc => ?_, List.forall_mem_append.mpr ⟨?_, hchain⟩⟩
    · exact isLineChar_of_isListed (isListed_of_isToken hword.isToken c hc)
    · exact List.all_eq_true.mp rfl

/-- An assignment is not listed like the head of an arm. -/
theorem listing_ne_if {text : Text} (hlocals : AreListable locals) (h : assignment.IsRead locals) :
    assignment.listing locals ≠ "IF (".toList ++ text := by
  obtain ⟨htarget, source, hsource⟩ := h.parts
  cases hname : assignment.target.name? locals with
  | none =>
    obtain ⟨tree, hled, hchain, hterms⟩ := Chain.exists_tree hsource
    rw [(listing_of_discard hname).2, hchain, listing_terms]
    have hword : IsWord "IF".toList := by decide
    exact LevelTree.text_ne_word_open hlocals hled hterms hword
  | some name =>
    rw [listing_of_name? hname]
    intro heq
    have hword : IsToken "IF".toList := by decide
    have hsplit : name ++ (" = ".toList ++ Chain.listing locals assignment.chain 0) =
        "IF".toList ++ (" (".toList ++ text) := heq
    obtain ⟨-, hbehind⟩ := token_unique (Target.isWord_name hlocals htarget hname).isToken hword
      (endsToken_cons rfl) (endsToken_cons rfl) hsplit
    exact absurd (List.cons.inj (List.cons.inj hbehind).2).1 (by decide)

end Assignment

end SignalScript
