import SignalScript.Proofs.Expression.ReturnPlace
import SignalScript.Proofs.Statement.Causes

/-!
# What the readers report

A reader that yields nothing has said why. A chain that is cut at a `RETURN` says so once, however
many levels the cut goes through, and only if it loses text. Nothing else in a chain that is read is
a matter of its structure.

## Main definitions

* `Noted.Explains` — nothing is yielded without a note
* `Noted.problemsAfter` — the problems after a reading, when others were there before

## Main results

* `Assignment.explains_read`, `Chain.explains_read` — a dropped statement or chain is explained
* `Chain.structural_read` — the notes on the structure of a chain that is read
* `reports_dropped_and_cut` — the problems that both readers add
-/

namespace SignalScript

open Text

/-! ### What is dropped is explained -/

namespace Noted

variable {α β : Type}

/-- Nothing is yielded without a note. -/
def Explains (checked : Checked (Option α)) : Prop := checked.value = none → checked.notes ≠ []

theorem explains_some (a : α) : (pure (some a) : Checked (Option α)).Explains := by
  intro h
  cases h

/-- Whatever follows a note. -/
theorem explains_note (cause : Cause) (next : Unit → Checked (Option α)) :
    (note cause >>= next).Explains := fun _ => List.cons_ne_nil _ _

/-- A step whose value is there in any case. -/
theorem explains_after {checked : Checked β} {next : β → Checked (Option α)}
    (hnext : ∀ b, (next b).Explains) : (checked >>= next).Explains := fun h hnotes =>
  hnext _ h (List.append_eq_nil_iff.mp hnotes).2

theorem Explains.bind {checked : Checked (Option β)} {next : Option β → Checked (Option α)}
    (h : checked.Explains) (hnext : ∀ b, checked.value = some b → (next (some b)).Explains) :
    (checked >>= next).Explains := by
  intro hvalue hnotes
  obtain ⟨hfirst, hsecond⟩ := List.append_eq_nil_iff.mp hnotes
  cases hchecked : checked.value with
  | none => exact h hchecked hfirst
  | some b =>
    rw [hchecked] at hsecond
    rw [value_bind, hchecked] at hvalue
    exact hnext b hchecked hvalue hsecond

end Noted

open Noted

section Dropped

variable (locals : List Text)

theorem Call.explains_read {text : Text} (h : '(' ∈ text) : (Call.read locals text).Explains := by
  rw [Call.read]
  split
  · rename_i hcut
    exact absurd h (cut?_eq_none_iff.mp hcut)
  · split
    · exact explains_note _ _
    · split
      · exact explains_note _ _
      · refine explains_after fun arguments => ?_
        split
        · exact explains_note _ _
        · exact explains_some _

theorem Atom.explains_read (text : Text) : (Atom.read locals text).Explains := by
  rw [Atom.read]
  split
  · rename_i hopen
    exact (Call.explains_read locals hopen).bind fun call _ => explains_some (Atom.call call)
  · exact explains_after fun _ => explains_some _

theorem explains_readLevel (source : Text) (level last : Nat) (text : Text) :
    (readLevel locals source level last text).Explains := by
  -- The cases are those of the reader: each ends with a note, or goes on reading.
  rw [readLevel.eq_def]
  split
  · exact explains_some _
  · simp only
    split
    · rename_i inner behind hgroup
      have hshorter := length_lt_of_enclosed? hgroup
      refine (explains_readLevel source _ _ _).bind fun group _ => ?_
      simp only
      split
      · exact explains_after fun _ => explains_some _
      · split
        · exact explains_note _ _
        · exact (explains_readLevel source _ _ _).bind fun _ _ => explains_some _
    · split
      · exact explains_note _ _
      · split
        · exact explains_note _ _
        · rename_i htoken
          have hshorter := Nat.lt_of_lt_of_le (length_splitToken_lt htoken)
            (length_termHead_le text)
          split
          · exact explains_after fun _ => explains_some _
          · exact (Atom.explains_read locals _).bind fun atom _ =>
              (explains_readLevel source _ _ _).bind fun _ _ => explains_some _
termination_by text.length
decreasing_by
  · exact hshorter.1
  · exact hshorter.2
  · exact hshorter

/-- A chain that is dropped is explained. -/
theorem Chain.explains_read (text : Text) : (Chain.read locals text).Explains := by
  rw [Chain.read]
  split
  · exact explains_note _ _
  · exact (explains_readLevel locals _ _ _ _).bind fun _ _ => explains_some _

theorem explains_sides (statement : Text) : (Assignment.sides locals statement).Explains := by
  rw [Assignment.sides.eq_def]
  split
  · exact explains_some _
  · split
    · exact explains_note _ _
    · split
      · exact explains_some _
      · exact explains_note _ _
  · exact explains_note _ _

/-- A statement that is dropped is explained. -/
theorem Assignment.explains_read (line : Nat) (text : Text) :
    (Assignment.read locals line text).Explains := by
  rw [Assignment.read]
  refine (explains_sides locals _).bind fun sides _ => ?_
  refine (Chain.explains_read locals _).bind fun chain _ => ?_
  cases chain with
  | nil => exact explains_note _ _
  | cons term chain => exact explains_some _

end Dropped

/-! ### What is cut off is reported once -/

/-- What a level reports on its structure, by the way its reading ended. -/
def Ending.report (source : Text) : Ending → List Cause
  | .returned true => [.textAfterReturn source]
  | _ => []

/-- The cause lies in the structure of the text. -/
def Cause.isStructural (cause : Cause) : Bool := cause.kind = .structural

section Cut

variable {locals : List Text} {source text : Text} {level last : Nat} {result : Level}
  {notes : List Cause} {left : List Text}

theorem Atom.structural_notes (locals : List Text) (text : Text) :
    (Atom.read locals text).notes.filter Cause.isStructural = [] := by
  refine List.filter_eq_nil_iff.mpr fun cause hcause => ?_
  rw [Cause.isStructural, Atom.kind_read locals text cause hcause]
  decide

/-- Text is reported where it is lost, or has been before. -/
theorem exists_value_endReturned (source rest : Text) (before : Bool) :
    ∃ reported, (endReturned source rest before).value = .returned reported ∧
      (reported = true ↔ before = true ∨ rest ≠ []) := by
  refine ⟨before || !rest.isEmpty, ?_, by simp⟩
  rw [endReturned]
  cases before <;> cases rest <;> rfl

/-- What was reported before is not reported again. -/
theorem report_endReturned (source rest : Text) (reported : Bool) :
    (Ending.returned reported).report source ++
        (endReturned source rest reported).notes.filter Cause.isStructural =
      (endReturned source rest reported).value.report source := by
  rw [endReturned]
  cases reported <;> cases rest <;> rfl

/-- The notes on the structure of a level that is read. -/
theorem Reads.structural_notes (h : Reads locals source level last text result notes) :
    notes.filter Cause.isStructural = result.ending.report source := by
  -- The induction is on the run. Only its last step ends at a `RETURN`, so the notes of the steps
  -- in front of it add nothing, and a level around it adds nothing to what was reported.
  induction h with
  | done => rfl
  | @atom _ _ _ token _ _ _ _ _ _ _ _ _ _ _ hatom _ ih =>
    have hnotes := Atom.structural_notes locals (trim token)
    rw [hatom] at hnotes
    rw [List.filter_append, hnotes, ih]
    rfl
  | @ret _ _ _ _ behind _ ending _ _ _ _ hending =>
    have hreport := report_endReturned source (trim behind) false
    rw [hending] at hreport
    exact hreport
  | group _ _ _ _ _ ihinner ihmore =>
    rw [List.filter_append, ihinner, ihmore]
    rfl
  | @groupReturned _ _ _ _ _ behind _ _ reported _ _ _ _ _ _ hending ihinner =>
    have hreport := report_endReturned source (trimStart behind) reported
    rw [hending] at hreport
    rw [List.filter_append, ihinner]
    exact hreport

/-- A level that ended at a `RETURN` has it as a term. -/
theorem Reads.exists_ret {reported : Bool}
    (h : Reads locals source level last text result notes)
    (hending : result.ending = .returned reported) : ∃ term ∈ result.terms, term.factor = .ret := by
  induction h generalizing reported with
  | done => cases hending
  | atom _ _ _ _ _ _ _ ih =>
    obtain ⟨term, hterm, hret⟩ := ih hending
    exact ⟨term, List.mem_cons_of_mem _ hterm, hret⟩
  | ret _ _ _ _ => exact ⟨_, List.mem_cons_self, rfl⟩
  | group _ _ _ _ _ _ ih =>
    obtain ⟨term, hterm, hret⟩ := ih hending
    exact ⟨term, List.mem_cons_of_mem _ (List.mem_append_right _ hterm), hret⟩
  | groupReturned _ _ _ _ ih =>
    obtain ⟨term, hterm, hret⟩ := ih rfl
    exact ⟨term, List.mem_cons_of_mem _ hterm, hret⟩

theorem holdsText_append {front back : List Text} :
    HoldsText (front ++ back) ↔ HoldsText front ∨ HoldsText back := by
  simp only [HoldsText, List.mem_append, or_and_right, exists_or]

theorem holdsText_singleton : HoldsText [text] ↔ trim text ≠ [] := by
  rw [Ne, trim_eq_nil_iff]
  simp [HoldsText]

/-- What the reader sees at a `RETURN`, or at a group that holds one. -/
theorem ReturnsAt.token_or_group (h : ReturnsAt text left) :
    (∃ token behind, splitToken 0 text = (token, behind) ∧ trim token = "RETURN".toList ∧
        (HoldsText left → trim behind ≠ [])) ∨
      ∃ inner after inside, enclosed? text = some (inner, after) ∧
        LeavesBehind (trim inner) inside ∧ left = inside ++ [after] := by
  cases h with
  | @here behind hbehind =>
    obtain ⟨token, hsplit, htoken⟩ := exists_splitToken_return hbehind
    refine .inl ⟨token, trimStart behind, hsplit, htoken, fun hholds => ?_⟩
    rw [trim_trimStart]
    exact holdsText_singleton.mp hholds
  | within hinner hfront htrim hrest =>
    exact .inr ⟨_, _, _, enclosed?_of_isBalanced hinner _, ⟨_, _, hfront, htrim, hrest⟩, rfl⟩

theorem head?_of_enclosed? {inner after : Text} (h : enclosed? text = some (inner, after)) :
    text.head? = some '(' := by
  rw [enclosed?_eq_some h]
  rfl

/-- What a `RETURN` leaves behind decides what is reported. -/
theorem Reads.exists_leavesBehind {reported : Bool}
    (h : Reads locals source level last text result notes) (htext : trimStart text = text)
    (hending : result.ending = .returned reported) :
    ∃ left, LeavesBehind text left ∧ (reported = true ↔ HoldsText left) := by
  -- The induction is on the run: what the later terms leave behind, the level leaves behind, and a
  -- group adds what stands behind it.
  induction h generalizing reported with
  | done => cases hending
  | @atom _ _ text _ _ _ _ _ _ _ hhead hopen hsplit _ _ _ _ ih =>
    subst hhead
    have hbare := startsBare_splitToken 0 (termHead text).rest
    rw [hsplit] at hbare
    obtain ⟨term, hterm⟩ := exists_isFirstTerm_of_splitToken hsplit
    obtain ⟨left, hleft, hreported⟩ := ih (trimStart_of_startsBare hbare) hending
    exact ⟨left, hleft.prepend hterm hbare, hreported⟩
  | @ret _ _ text _ behind _ _ _ hhead hsplit htoken hend =>
    subst hhead
    obtain ⟨lead, hlead, happend⟩ := exists_isLead text
    obtain ⟨gap, hgap, hrest, hends⟩ :=
      exists_append_of_return (trimStart_termHead htext) hsplit htoken
    refine ⟨[gap ++ behind], ⟨lead, _, hlead.beginsTerm, happend, hrest ▸ .here hends⟩, ?_⟩
    obtain ⟨_, hvalue, hiff⟩ := exists_value_endReturned source (trim behind) false
    rw [hend] at hvalue
    obtain rfl := Ending.returned.inj (hending.symm.trans hvalue)
    rw [hiff, holdsText_singleton, trim, trim, trimStart_append_of_blank hgap]
    simp
  | group hhead hgroup _ hbare _ _ ih =>
    subst hhead
    obtain ⟨term, hterm⟩ := exists_isFirstTerm_of_enclosed? hgroup
    obtain ⟨left, hleft, hreported⟩ := ih (trimStart_trimStart _) hending
    exact ⟨left, hleft.prepend hterm hbare, hreported⟩
  | @groupReturned _ _ _ text inner behind _ _ before _ _ _ hhead hgroup _ hend ih =>
    subst hhead
    obtain ⟨lead, hlead, happend⟩ := exists_isLead text
    obtain ⟨left, ⟨front, rest, hfront, htrim, hrest⟩, hbefore⟩ :=
      ih (trimStart_trim inner) rfl
    refine ⟨left ++ [behind], ⟨lead, _, hlead.beginsTerm, happend, ?_⟩, ?_⟩
    · rw [enclosed?_eq_some hgroup]
      exact .within (isBalanced_of_enclosed? hgroup) hfront htrim hrest
    · obtain ⟨_, hvalue, hiff⟩ :=
        exists_value_endReturned source (trimStart behind) before
      rw [hend] at hvalue
      obtain rfl := Ending.returned.inj (hending.symm.trans hvalue)
      rw [hiff, holdsText_append, holdsText_singleton, hbefore, trimStart_ne_nil_iff]

/-- Wherever a `RETURN` loses text, the reading ends with a report. -/
theorem Reads.reported_of_leavesBehind (h : Reads locals source level last text result notes)
    (hleft : LeavesBehind text left) :
    ∃ reported, result.ending = .returned reported ∧ (HoldsText left → reported = true) := by
  -- The induction is on the run. A `RETURN` in the first term is the one that the step is about.
  -- One in a later term is read there, or is itself part of the text that is lost.
  induction h generalizing left with
  | done => exact absurd hleft not_leavesBehind_nil
  | atom hhead hopen hsplit _ hreturn _ _ ih =>
    subst hhead
    obtain ⟨term, hterm⟩ := exists_isFirstTerm_of_splitToken hsplit
    rcases hleft.first_or_later hterm with hfirst | ⟨hlater, -⟩
    · rcases hfirst.token_or_group with ⟨token, behind, htoken, hword, -⟩ | ⟨_, _, _, hgroup, -⟩
      · obtain ⟨rfl, -⟩ := Prod.mk.inj (hsplit.symm.trans htoken)
        exact absurd hword hreturn
      · exact absurd (head?_of_enclosed? hgroup) hopen
    · exact ih hlater
  | @ret _ _ _ _ behind _ _ _ hhead hsplit htoken hend =>
    subst hhead
    obtain ⟨reported, hvalue, hiff⟩ :=
      exists_value_endReturned source (trim behind) false
    rw [hend] at hvalue
    refine ⟨reported, hvalue, fun hholds => hiff.mpr (.inr ?_)⟩
    obtain ⟨term, hterm⟩ := exists_isFirstTerm_of_splitToken hsplit
    rcases hleft.first_or_later hterm with hfirst | ⟨-, c, hmem, hc⟩
    · rcases hfirst.token_or_group with ⟨_, _, hfound, -, hlost⟩ | ⟨_, _, _, hgroup, -⟩
      · obtain ⟨-, rfl⟩ := Prod.mk.inj (hsplit.symm.trans hfound)
        exact hlost hholds
      · exact absurd (head?_of_enclosed? hgroup) (head?_ne_of_return hsplit htoken)
    · exact List.ne_nil_of_mem (mem_trim hc hmem)
  | group hhead hgroup _ _ _ ihinner ihmore =>
    subst hhead
    obtain ⟨term, hterm⟩ := exists_isFirstTerm_of_enclosed? hgroup
    rcases hleft.first_or_later hterm with hfirst | ⟨hlater, -⟩
    · rcases hfirst.token_or_group with ⟨_, _, hsplit, htoken, -⟩ | ⟨_, _, _, hfound, hinside, -⟩
      · exact absurd (head?_of_enclosed? hgroup) (head?_ne_of_return hsplit htoken)
      · -- A group with a `RETURN` does not end at the end of its text.
        obtain ⟨rfl, -⟩ := Prod.mk.inj (Option.some.inj (hgroup.symm.trans hfound))
        obtain ⟨reported, hending, -⟩ := ihinner hinside
        cases hending
    · exact ihmore hlater
  | @groupReturned _ _ _ _ _ behind _ _ before _ _ _ hhead hgroup _ hend ih =>
    subst hhead
    obtain ⟨reported, hvalue, hiff⟩ :=
      exists_value_endReturned source (trimStart behind) before
    rw [hend] at hvalue
    refine ⟨reported, hvalue, fun hholds => hiff.mpr ?_⟩
    obtain ⟨term, hterm⟩ := exists_isFirstTerm_of_enclosed? hgroup
    rcases hleft.first_or_later hterm with hfirst | ⟨-, c, hmem, -⟩
    · rcases hfirst.token_or_group with
        ⟨_, _, hsplit, htoken, -⟩ | ⟨_, _, inside, hfound, hinside, rfl⟩
      · exact absurd (head?_of_enclosed? hgroup) (head?_ne_of_return hsplit htoken)
      · obtain ⟨rfl, rfl⟩ := Prod.mk.inj (Option.some.inj (hgroup.symm.trans hfound))
        rcases holdsText_append.mp hholds with hinner | hafter
        · obtain ⟨_, hending, hreported⟩ := ih hinside
          obtain rfl := Ending.returned.inj hending
          exact .inl (hreported hinner)
        · exact .inr (trimStart_ne_nil_iff.mpr (holdsText_singleton.mp hafter))
    · exact .inr (List.ne_nil_of_mem hmem)

/-- The notes on the structure of a chain that is read: none, or one on the text behind its
`RETURN`. -/
theorem Chain.structural_read {chain : Chain} (h : (Chain.read locals text).value = some chain) :
    ((Chain.read locals text).notes.filter Cause.isStructural = [] ∧
        ¬ ∃ left, LeavesBehind (trim text) left ∧ HoldsText left) ∨
      (Chain.read locals text).notes.filter Cause.isStructural = [.textAfterReturn text] ∧
        (∃ term ∈ chain, term.factor = .ret) ∧
          ∃ left, LeavesBehind (trim text) left ∧ HoldsText left := by
  obtain ⟨result, hrun, rfl⟩ := Chain.exists_reads h
  rw [hrun.structural_notes]
  cases hending : result.ending with
  | complete =>
    left
    refine ⟨rfl, ?_⟩
    rintro ⟨left, hleft, -⟩
    obtain ⟨reported, hreturned, -⟩ := hrun.reported_of_leavesBehind hleft
    cases hending.symm.trans hreturned
  | returned reported =>
    obtain ⟨left, hleft, hiff⟩ := hrun.exists_leavesBehind (trimStart_trim text) hending
    cases reported with
    | true => exact .inr ⟨rfl, hrun.exists_ret hending, left, hleft, hiff.mp rfl⟩
    | false =>
      left
      refine ⟨rfl, ?_⟩
      rintro ⟨left, hleft, hholds⟩
      obtain ⟨reported, hreturned, hreported⟩ := hrun.reported_of_leavesBehind hleft
      obtain rfl := Ending.returned.inj (hending.symm.trans hreturned)
      cases hreported hholds

end Cut

/-! ### What both readers add -/

/-- The problems after a reading of line `line`, when `prior` were there before. -/
def Noted.problemsAfter {α : Type} (checked : Checked α) (line : Nat) (prior : List Problem) :
    List Problem :=
  (Noted.mk () prior >>= fun _ => checked.atLine line).notes

section Added

variable {locals : List Text} {line : Nat} {text : Text}

/-- A dropped statement adds a problem of its line. -/
theorem Assignment.exists_problem (h : (Assignment.read locals line text).value = none) :
    ∃ problem ∈ ((Assignment.read locals line text).atLine line).notes,
      problem.line = line ∧ problem.cause.IsOfText := by
  obtain ⟨cause, hcause⟩ :=
    List.exists_mem_of_ne_nil _ (Assignment.explains_read locals line text h)
  exact ⟨⟨line, cause⟩, List.mem_map_of_mem hcause, rfl,
    Assignment.isOfText_read locals line text cause hcause⟩

end Added

/-- The readers of statements and of chains add problems behind those that were there before. A
dropped statement adds one that lies in the text of its line. A chain that is read adds no problem
of structure, or one, on the text behind its `RETURN`: if it has a `RETURN`, and text is left behind
on its level or on one around it. -/
theorem reports_dropped_and_cut (locals : List Text) (line : Nat) (prior : List Problem)
    (text : Text) :
    ∃ dropped cut,
      (Assignment.read locals line text).problemsAfter line prior = prior ++ dropped ∧
      (Chain.read locals text).problemsAfter line prior = prior ++ cut ∧
      ((Assignment.read locals line text).value = none →
        ∃ problem ∈ dropped, problem.line = line ∧ problem.cause.IsOfText) ∧
      ∀ chain, (Chain.read locals text).value = some chain →
        (cut.filter (·.cause.isStructural) = [] ∨
          cut.filter (·.cause.isStructural) = [⟨line, .textAfterReturn text⟩]) ∧
        (cut.filter (·.cause.isStructural) = [⟨line, .textAfterReturn text⟩] ↔
          (∃ term ∈ chain, term.factor = .ret) ∧
            ∃ left, LeavesBehind (trim text) left ∧ HoldsText left) := by
  refine ⟨_, _, rfl, rfl, Assignment.exists_problem, fun chain hchain => ?_⟩
  -- Structural causes become structural problems of the line, and no others do.
  have hfilter : ((Chain.read locals text).atLine line).notes.filter (·.cause.isStructural) =
      ((Chain.read locals text).notes.filter Cause.isStructural).map (⟨line, ·⟩) := List.filter_map
  rw [hfilter]
  rcases Chain.structural_read hchain with ⟨hnone, hleft⟩ | ⟨hone, hret, hleft⟩
  · rw [hnone]
    exact ⟨.inl rfl, fun h => absurd h (List.cons_ne_nil _ _).symm, fun h => absurd h.2 hleft⟩
  · rw [hone]
    exact ⟨.inr rfl, fun _ => ⟨hret, hleft⟩, fun _ => rfl⟩

/-- A statement that assigns to no variable. Read as a chain, it ends at the `RETURN` of its group,
which leaves text behind on the level around it. -/
def returnInGroup : Text := "(RETURN) + A = 1".toList

theorem reports_returnInGroup : ∃ dropped cut,
    (Assignment.read [] 3 returnInGroup).problemsAfter 3 [⟨2, .strayBrace⟩] =
      ⟨2, .strayBrace⟩ :: dropped ∧
    (Chain.read [] returnInGroup).problemsAfter 3 [⟨2, .strayBrace⟩] = ⟨2, .strayBrace⟩ :: cut ∧
    (∃ problem ∈ dropped, problem.line = 3 ∧ problem.cause.IsOfText) ∧
    cut.filter (·.cause.isStructural) = [⟨3, .textAfterReturn returnInGroup⟩] := by
  have hnone : (Assignment.read [] 3 returnInGroup).value = none := by decide +kernel
  -- The run of the reader: the group is read first and returns, and the text behind it is noted.
  have hsplit : splitToken 0 "RETURN".toList = ("RETURN".toList, []) := rfl
  have hinner : Reads [] returnInGroup 1 1 (trim "RETURN".toList)
      ⟨[⟨false, none, 1, .ret⟩], 1, .returned false⟩ [] :=
    .ret rfl hsplit rfl rfl
  have hhead : termHead (trim returnInGroup) = ⟨none, false, returnInGroup⟩ := rfl
  have hgroup : enclosed? returnInGroup = some ("RETURN".toList, " + A = 1".toList) := rfl
  have hrun : Reads [] returnInGroup 0 0 (trim returnInGroup)
      ⟨[⟨false, none, 0, .group 1⟩, ⟨false, none, 1, .ret⟩], 1, .returned true⟩
      [.textAfterReturn returnInGroup] :=
    .groupReturned hhead hgroup hinner rfl
  have hsome : (Chain.read [] returnInGroup).value =
      some [⟨false, none, 0, .group 1⟩, ⟨false, none, 1, .ret⟩] := by
    rw [Chain.read, if_neg (by decide), value_bind, hrun.readLevel_eq]
    rfl
  have hreturns : ReturnsAt ('(' :: ("RETURN".toList ++ ')' :: " + A = 1".toList))
      ([[]] ++ [" + A = 1".toList]) :=
    .within (by decide) (.first .absent) rfl (.here (endsTerm_iff.mpr rfl))
  have hleft : LeavesBehind (trim returnInGroup) [[], " + A = 1".toList] :=
    ⟨[], _, .first .absent, rfl, hreturns⟩
  obtain ⟨dropped, cut, hdropped, hcut, hexplained, honce⟩ :=
    reports_dropped_and_cut [] 3 [⟨2, .strayBrace⟩] returnInGroup
  refine ⟨dropped, cut, hdropped, hcut, hexplained hnone, (honce _ hsome).2.mpr ⟨?_, _, hleft, ?_⟩⟩
  · exact ⟨_, List.mem_cons_of_mem _ List.mem_cons_self, rfl⟩
  · exact ⟨" + A = 1".toList, by simp, '+', by decide, rfl⟩

end SignalScript
