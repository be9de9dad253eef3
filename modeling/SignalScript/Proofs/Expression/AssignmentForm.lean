import SignalScript.Proofs.Expression.LevelForm
import SignalScript.Proofs.Expression.LevelRun
import SignalScript.Proofs.Text.Cutting

/-!
# The form of assignments

Every level that is read has the form of a level, so the chain of an assignment keeps what is
promised of chains: an error anywhere in its text drops the assignment as a whole, and text behind a
`RETURN` is cut off together with its terms.

## Main definitions

* `Assignment.WellFormed` — what is promised of an assignment

## Main results

* `Reads.isLevel` — the terms that are read have the form of a level
* `Assignment.wellFormed_read` — what is read from a statement keeps all promises
-/

namespace SignalScript

/-- What is promised of an assignment. -/
structure Assignment.WellFormed (locals : List Text) (assignment : Assignment) : Prop where
  target : assignment.target.InScope locals
  chain : assignment.chain.WellFormed locals

/-- The reading ended at a `RETURN`. -/
def Ending.isReturned : Ending → Bool
  | .complete => false
  | .returned _ => true

section Reading

variable {locals : List Text} {source text inner behind : Text} {level last : Nat} {result : Level}

/-- A text that begins with no bare character begins with an operator. -/
theorem operator_termHead (hempty : ¬ text.isEmpty = true) (hbare : startsBare text = false) :
    (termHead text).operator ≠ none := by
  cases text with
  | nil => exact absurd rfl hempty
  | cons c rest =>
    simp only [startsBare, Bool.not_eq_false', Operator.isSymbol] at hbare
    obtain ⟨operator, hoperator⟩ := Option.isSome_iff_exists.mp hbare
    simp [termHead, leadingOperator, hoperator]

/-- A level that ends with `RETURN` says so. -/
theorem isReturned_of_endReturned {rest : Text} {reported : Bool} {ending : Ending}
    {notes : List Cause} (h : endReturned source rest reported = ⟨ending, notes⟩) :
    ending.isReturned = true := by
  rw [endReturned] at h
  split at h <;> obtain ⟨rfl, -⟩ := Noted.mk.inj h <;> rfl

/-- A level that is read has the form of a level. -/
theorem Reads.isLevel {notes : List Cause} {led : Bool}
    (h : Reads locals source level last text result notes)
    (hled : led = true → startsBare text = false) :
    IsLevel locals level last led result.terms result.last result.ending.isReturned := by
  induction h generalizing led with
  | done => exact .done
  | @atom _ _ text _ _ _ _ _ _ _ hhead _ hsplit hne _ hatom _ ih =>
    subst hhead
    -- What is left behind a token begins with an operator, so the later terms have one.
    have hbare := startsBare_splitToken 0 (termHead text).rest
    rw [hsplit] at hbare
    have hempty := ne_nil_of_rest (rest_ne_nil_of_splitToken hsplit hne)
    exact .atom (fun hl => operator_termHead hempty (hled hl))
      (Atom.inScope_read (congrArg Noted.value hatom)) (ih fun _ => hbare)
  | ret hhead hsplit htoken hending =>
    subst hhead
    have hempty := ne_nil_of_rest (rest_ne_nil_of_splitToken hsplit (by rw [htoken]; decide))
    simp only [isReturned_of_endReturned hending]
    exact .ret fun hl => operator_termHead hempty (hled hl)
  | group hhead hgroup _ hbare _ ihinner ihmore =>
    subst hhead
    have hempty := ne_nil_of_rest (rest_ne_nil_of_enclosed? hgroup)
    exact .group (fun hl => operator_termHead hempty (hled hl)) (ihinner fun hl => by cases hl)
      (ihmore fun _ => hbare)
  | groupReturned hhead hgroup _ hending ihinner =>
    subst hhead
    have hempty := ne_nil_of_rest (rest_ne_nil_of_enclosed? hgroup)
    simp only [isReturned_of_endReturned hending]
    exact .groupReturned (fun hl => operator_termHead hempty (hled hl))
      (ihinner fun hl => by cases hl)

/-- A chain that was read has the form of the lowest level. -/
theorem Chain.isLevel_read {chain : Chain} (h : (Chain.read locals text).value = some chain) :
    ∃ last returned, IsLevel locals 0 0 false chain last returned := by
  obtain ⟨result, hrun, rfl⟩ := Chain.exists_reads h
  exact ⟨_, _, hrun.isLevel fun hl => by cases hl⟩

/-- Whatever the text of a chain is, what is read keeps all promises. -/
theorem Chain.wellFormed_read {chain : Chain}
    (h : (Chain.read locals text).value = some chain) (hne : chain ≠ []) :
    chain.WellFormed locals := by
  obtain ⟨last, returned, hform⟩ := Chain.isLevel_read h
  exact hform.wellFormed hne

/-- The chain of an assignment that was read was read itself. -/
theorem Assignment.exists_read_chain {line : Nat} {assignment : Assignment}
    (h : (Assignment.read locals line text).value = some assignment) :
    ∃ source, (Chain.read locals source).value = some assignment.chain := by
  rw [Assignment.read, Noted.value_bind] at h
  split at h
  · cases h
  · rw [Noted.value_bind] at h
    split at h
    · cases h
    · cases h
    · rename_i hchain
      obtain rfl := Option.some.inj h
      exact ⟨_, hchain⟩

/-- A place that is assigned to is named in front of the equals sign. -/
theorem Target.exists_name_sides {target : Target} {statement chain : Text}
    (h : (Assignment.sides locals statement).value = some (target, chain))
    (htarget : target ≠ .discard) :
    ∃ before after, '=' ∉ before ∧ statement = before ++ '=' :: after ∧
      Target.named? locals (Text.trim before) = some target := by
  unfold Assignment.sides at h
  split at h
  · obtain ⟨rfl, -⟩ := Prod.mk.inj (Option.some.inj h)
    exact absurd rfl htarget
  · rename_i name behind hpieces
    split at h
    · cases h
    · split at h
      · rename_i hnamed
        obtain ⟨rfl, rfl⟩ := Prod.mk.inj (Option.some.inj h)
        obtain ⟨before, rest, hsplit, rfl, hrest⟩ := List.map_eq_cons_iff.mp hpieces
        obtain ⟨after, rest, rfl, -, hrest⟩ := List.map_eq_cons_iff.mp hrest
        obtain rfl := List.map_eq_nil_iff.mp hrest
        have hbefore : '=' ∉ before :=
          Text.not_mem_of_mem_pieces (by rw [hsplit]; exact List.mem_cons_self)
        refine ⟨before, after, hbefore, ?_, hnamed⟩
        -- There are two pieces, so the statement has one equals sign.
        have hjoined := Text.joinedBy_pieces '=' statement
        rw [hsplit] at hjoined
        rw [← hjoined]
        simp [Text.joinedBy]
      · cases h
  · cases h

/-- The place that a statement assigns to is named in front of its first equals sign, decorated or
not. -/
theorem Assignment.exists_name_read {line : Nat} {assignment : Assignment}
    (h : (Assignment.read locals line text).value = some assignment)
    (htarget : assignment.target ≠ .discard) :
    ∃ before after, text.filter (fun c => c ≠ ';') = before ++ '=' :: after ∧
      Target.named? locals (Text.trim before) = some assignment.target := by
  rw [Assignment.read, Noted.value_bind] at h
  split at h
  · cases h
  · rename_i target chainText hsides
    rw [Noted.value_bind] at h
    split at h
    · cases h
    · cases h
    · obtain rfl := Option.some.inj h
      obtain ⟨before, after, hbefore, hstatement, hnamed⟩ :=
        Target.exists_name_sides hsides htarget
      refine ⟨before, ?_⟩
      rw [plainEquals] at hstatement
      split at hstatement
      · exact ⟨after, hstatement, hnamed⟩
      · rename_i front behind hcut
        have hfront : '=' ∉ front.filter fun c => c ≠ ';' := fun hmem =>
          Text.not_mem_of_cut?_eq_some hcut (List.mem_of_mem_filter hmem)
        rw [List.filter_append, List.filter_cons_of_pos (by decide)] at hstatement
        -- Semicolons are dropped before or after the first equals sign is found; it is the same
        -- one.
        have hsame := (Text.cut?_append_cons hfront _).symm.trans
          ((congrArg (Text.cut? '=') hstatement).trans (Text.cut?_append_cons hbefore after))
        obtain ⟨rfl, -⟩ := Prod.mk.inj (Option.some.inj hsame)
        refine ⟨behind.filter fun c => c ≠ ';', ?_, hnamed⟩
        rw [Text.cut?_eq_some hcut, List.filter_append, List.filter_cons_of_pos (by decide)]

/-- A target that was read is in scope. -/
theorem Target.inScope_sides {target : Target}
    (h : (Assignment.sides locals text).value = some (target, behind)) :
    target.InScope locals := by
  unfold Assignment.sides at h
  split at h
  · obtain ⟨rfl, -⟩ := Prod.mk.inj (Option.some.inj h)
    trivial
  · split at h
    · cases h
    · split at h
      · rename_i hnamed
        obtain ⟨rfl, -⟩ := Prod.mk.inj (Option.some.inj h)
        exact Target.inScope_named? hnamed
      · cases h
  · cases h

/-- What is read from a statement keeps all promises. -/
theorem Assignment.wellFormed_read {line : Nat} {assignment : Assignment}
    (h : (Assignment.read locals line text).value = some assignment) :
    assignment.WellFormed locals := by
  rw [Assignment.read, Noted.value_bind] at h
  split at h
  · cases h
  · rename_i hsides
    rw [Noted.value_bind] at h
    split at h
    · cases h
    · cases h
    · -- A chain without terms has been dropped before.
      rename_i hne hchain
      obtain rfl := Option.some.inj h
      exact ⟨Target.inScope_sides hsides, Chain.wellFormed_read hchain hne⟩

end Reading

end SignalScript
