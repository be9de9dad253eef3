import SignalScript.Expression.Chain
import SignalScript.Proofs.Text.Trimming

/-!
# Runs of the reader over a level

A level is read if its terms are, one after another: an operand or call and what follows it, a group
and what follows it, or a `RETURN`, which ends the run. The runs are described by rules, with the
notes that are made on the way, so that what holds of a level that was read is shown rule by rule.

## Main definitions

* `Reads` — the terms of a level are read from a text, with these notes

## Main results

* `reads_of_value` — a reading that yields a level is a run, with the notes that the reader makes
* `Chain.exists_reads` — a chain that is read is that of a run over its text
-/

namespace SignalScript

open Text

/-- The terms of a level are read from a text, with these notes. -/
inductive Reads (locals : List Text) (source : Text) :
    (level last : Nat) → Text → Level → List Cause → Prop
  | done {level last : Nat} : Reads locals source level last [] ⟨[], last, .complete⟩ []
  | atom {level last : Nat} {text token behind : Text} {head : TermHead} {atom : Atom}
    {more : Level} {notes later : List Cause} (hhead : termHead text = head)
    (hopen : head.rest.head? ≠ some '(') (hsplit : splitToken 0 head.rest = (token, behind))
    (hne : trim token ≠ []) (hreturn : trim token ≠ "RETURN".toList)
    (hatom : Atom.read locals (trim token) = ⟨some atom, notes⟩)
    (hmore : Reads locals source level last behind more later) :
    Reads locals source level last text
      ⟨⟨head.negated, head.operator, level, .atom atom⟩ :: more.terms, more.last, more.ending⟩
      (notes ++ later)
  | ret {level last : Nat} {text token behind : Text} {head : TermHead} {ending : Ending}
    {notes : List Cause} (hhead : termHead text = head)
    (hsplit : splitToken 0 head.rest = (token, behind)) (htoken : trim token = "RETURN".toList)
    (hending : endReturned source (trim behind) false = ⟨ending, notes⟩) :
    Reads locals source level last text
      ⟨[⟨head.negated, head.operator, level, .ret⟩], last, ending⟩ notes
  | group {level last last' : Nat} {text inner behind : Text} {head : TermHead} {terms : Chain}
    {more : Level} {notes later : List Cause} (hhead : termHead text = head)
    (hgroup : enclosed? head.rest = some (inner, behind))
    (hinner : Reads locals source (last + 1) (last + 1) (trim inner) ⟨terms, last', .complete⟩
      notes)
    (hbare : startsBare (trimStart behind) = false)
    (hmore : Reads locals source level last' (trimStart behind) more later) :
    Reads locals source level last text
      ⟨⟨head.negated, head.operator, level, .group (last + 1)⟩ :: (terms ++ more.terms), more.last,
        more.ending⟩ (notes ++ later)
  /-- A `RETURN` in a group ends the levels around it. -/
  | groupReturned {level last last' : Nat} {text inner behind : Text} {head : TermHead}
    {terms : Chain} {reported : Bool} {ending : Ending} {notes later : List Cause}
    (hhead : termHead text = head) (hgroup : enclosed? head.rest = some (inner, behind))
    (hinner : Reads locals source (last + 1) (last + 1) (trim inner)
      ⟨terms, last', .returned reported⟩ notes)
    (hending : endReturned source (trimStart behind) reported = ⟨ending, later⟩) :
    Reads locals source level last text
      ⟨⟨head.negated, head.operator, level, .group (last + 1)⟩ :: terms, last', ending⟩
      (notes ++ later)

section Steps

variable {locals : List Text} {source text token behind inner : Text} {level last : Nat}

/-- Behind a token stands an operator or nothing. -/
theorem startsBare_splitToken (depth : Int) (text : Text) :
    startsBare (splitToken depth text).2 = false := by
  induction text generalizing depth with
  | nil => rfl
  | cons c rest ih =>
    rw [splitToken]
    split
    · rename_i hsymbol
      simp [startsBare, hsymbol.2]
    · exact ih _

/-- The inside of a group and the text behind it are shorter than the text of the level. -/
theorem length_lt_of_enclosed?
    (hgroup : enclosed? (termHead text).rest = some (inner, behind)) :
    (trim inner).length < text.length ∧ (trimStart behind).length < text.length := by
  have := enclosed?_length hgroup
  have := length_termHead_le text
  have := Text.length_trim_le inner
  have := Text.length_trimStart_le behind
  omega

/-- The text behind a token that is not empty is shorter than the text of the level. -/
theorem length_splitToken_lt (htoken : ¬ (trim (splitToken 0 text).1).isEmpty = true) :
    (splitToken 0 text).2.length < text.length := by
  have hlength := congrArg List.length (splitToken_append 0 text)
  -- A token that is not blank takes at least one character.
  have hpos : 0 < (splitToken 0 text).1.length := by
    refine List.length_pos_iff.mpr fun hnil => htoken ?_
    rw [hnil]
    rfl
  rw [List.length_append] at hlength
  omega

/-- Only an opening bracket begins a group. -/
theorem enclosed?_eq_none (h : text.head? ≠ some '(') : enclosed? text = none := by
  rw [enclosed?.eq_def]
  split
  · exact absurd rfl h
  · rfl

/-- A text that holds a token or a group is not empty. -/
theorem ne_nil_of_rest (h : (termHead text).rest ≠ []) : ¬ text.isEmpty = true := by
  intro hempty
  rw [List.isEmpty_iff.mp hempty] at h
  exact h rfl

theorem rest_ne_nil_of_enclosed? (hgroup : enclosed? text = some (inner, behind)) : text ≠ [] := by
  rintro rfl
  cases hgroup

theorem rest_ne_nil_of_splitToken (hsplit : splitToken 0 text = (token, behind))
    (hne : trim token ≠ []) : text ≠ [] := by
  rintro rfl
  obtain ⟨rfl, -⟩ := Prod.mk.inj hsplit
  exact hne rfl

/-- The reader at a token that is an operand or call. -/
theorem readLevel_of_atom {atom : Atom} {notes : List Cause}
    (hopen : (termHead text).rest.head? ≠ some '(')
    (hsplit : splitToken 0 (termHead text).rest = (token, behind)) (hne : trim token ≠ [])
    (hreturn : trim token ≠ "RETURN".toList)
    (hatom : Atom.read locals (trim token) = ⟨some atom, notes⟩) :
    readLevel locals source level last text =
      ⟨(readLevel locals source level last behind).value.map fun more => { more with terms :=
          ⟨(termHead text).negated, (termHead text).operator, level, .atom atom⟩ :: more.terms },
        notes ++ (readLevel locals source level last behind).notes⟩ := by
  have hempty := ne_nil_of_rest (rest_ne_nil_of_splitToken hsplit hne)
  rw [readLevel.eq_def, if_neg hempty]
  simp only
  split
  · rename_i henclosed
    cases (enclosed?_eq_none hopen).symm.trans henclosed
  · rw [if_neg hopen, hsplit]
    simp only [List.isEmpty_iff, dif_neg hne, if_neg hreturn, hatom]
    exact congrArg (Noted.mk _) (congrArg (notes ++ ·) (List.append_nil _))

/-- A text whose first token is a `RETURN` begins with no bracket. -/
theorem head?_ne_of_return (hsplit : splitToken 0 text = (token, behind))
    (htoken : trim token = "RETURN".toList) : text.head? ≠ some '(' := by
  intro hhead
  obtain ⟨rest, rfl⟩ := List.head?_eq_some_iff.mp hhead
  have happend := splitToken_append 0 ('(' :: rest)
  rw [hsplit] at happend
  cases token with
  | nil => exact absurd htoken (by decide)
  | cons c token =>
    obtain ⟨rfl, -⟩ := List.cons.inj happend
    have hmem : '(' ∈ "RETURN".toList := by
      rw [← htoken]
      exact mem_trim rfl List.mem_cons_self
    exact absurd hmem (by decide)

/-- The reader at a `RETURN`. -/
theorem readLevel_of_return (hsplit : splitToken 0 (termHead text).rest = (token, behind))
    (htoken : trim token = "RETURN".toList) :
    readLevel locals source level last text =
      ⟨some ⟨[⟨(termHead text).negated, (termHead text).operator, level, .ret⟩], last,
          (endReturned source (trim behind) false).value⟩,
        (endReturned source (trim behind) false).notes⟩ := by
  have hne : trim token ≠ [] := by
    rw [htoken]
    decide
  have hempty := ne_nil_of_rest (rest_ne_nil_of_splitToken hsplit hne)
  have hopen := head?_ne_of_return hsplit htoken
  rw [readLevel.eq_def, if_neg hempty]
  simp only
  split
  · rename_i henclosed
    cases (enclosed?_eq_none hopen).symm.trans henclosed
  · rw [if_neg hopen, hsplit]
    simp only [List.isEmpty_iff, dif_neg hne, if_pos htoken]
    exact congrArg (Noted.mk _) (List.append_nil _)

/-- The reader at a group. -/
theorem readLevel_of_group {last' : Nat} {terms : Chain} {notes : List Cause}
    (hgroup : enclosed? (termHead text).rest = some (inner, behind))
    (hinner : readLevel locals source (last + 1) (last + 1) (trim inner) =
      ⟨some ⟨terms, last', .complete⟩, notes⟩)
    (hbare : startsBare (trimStart behind) = false) :
    readLevel locals source level last text =
      ⟨(readLevel locals source level last' (trimStart behind)).value.map fun more =>
          { more with terms :=
            ⟨(termHead text).negated, (termHead text).operator, level, .group (last + 1)⟩ ::
              (terms ++ more.terms) },
        notes ++ (readLevel locals source level last' (trimStart behind)).notes⟩ := by
  rw [readLevel.eq_def, if_neg (ne_nil_of_rest (rest_ne_nil_of_enclosed? hgroup))]
  simp only
  split
  · rename_i henclosed
    cases hgroup.symm.trans henclosed
    simp only [hinner, hbare]
    exact congrArg (Noted.mk _) (congrArg (notes ++ ·) (List.append_nil _))
  · rename_i henclosed
    cases hgroup.symm.trans henclosed

/-- The reader at a group that ends at a `RETURN`. -/
theorem readLevel_of_groupReturned {last' : Nat} {terms : Chain} {notes : List Cause}
    {reported : Bool} (hgroup : enclosed? (termHead text).rest = some (inner, behind))
    (hinner : readLevel locals source (last + 1) (last + 1) (trim inner) =
      ⟨some ⟨terms, last', .returned reported⟩, notes⟩) :
    readLevel locals source level last text =
      ⟨some ⟨⟨(termHead text).negated, (termHead text).operator, level, .group (last + 1)⟩ ::
          terms, last', (endReturned source (trimStart behind) reported).value⟩,
        notes ++ (endReturned source (trimStart behind) reported).notes⟩ := by
  rw [readLevel.eq_def, if_neg (ne_nil_of_rest (rest_ne_nil_of_enclosed? hgroup))]
  simp only
  split
  · rename_i henclosed
    cases hgroup.symm.trans henclosed
    simp only [hinner]
    exact congrArg (Noted.mk _) (congrArg (notes ++ ·) (List.append_nil _))
  · rename_i henclosed
    cases hgroup.symm.trans henclosed

end Steps

section Runs

variable {locals : List Text} {source text : Text} {level last : Nat} {result : Level}
  {notes : List Cause}

/-- A run describes what the reader does. -/
theorem Reads.readLevel_eq (h : Reads locals source level last text result notes) :
    readLevel locals source level last text = ⟨some result, notes⟩ := by
  induction h with
  | done =>
    rw [readLevel]
    rfl
  | atom hhead hopen hsplit hne hreturn hatom _ ih =>
    subst hhead
    rw [readLevel_of_atom hopen hsplit hne hreturn hatom, ih]
    rfl
  | ret hhead hsplit htoken hending =>
    subst hhead
    rw [readLevel_of_return hsplit htoken, hending]
  | group hhead hgroup _ hbare _ ihinner ihmore =>
    subst hhead
    rw [readLevel_of_group hgroup ihinner hbare, ihmore]
    rfl
  | groupReturned hhead hgroup _ hending ihinner =>
    subst hhead
    rw [readLevel_of_groupReturned hgroup ihinner, hending]

/-- What the reader does is a run, if it yields a level. -/
theorem reads_of_value {level last : Nat} {text : Text} {result : Level}
    (h : (readLevel locals source level last text).value = some result) :
    Reads locals source level last text result
      (readLevel locals source level last text).notes := by
  by_cases hempty : text.isEmpty = true
  · obtain rfl := List.isEmpty_iff.mp hempty
    rw [readLevel.eq_def] at h ⊢
    obtain rfl := Option.some.inj h
    exact .done
  · -- The cases are those of the reader; each way to a level is a step of the run.
    have hvalue := h
    rw [readLevel.eq_def, if_neg hempty] at hvalue
    simp only at hvalue
    split at hvalue
    · rename_i inner behind hgroup
      have hshorter := length_lt_of_enclosed? hgroup
      rw [Noted.value_bind] at hvalue
      split at hvalue
      · cases hvalue
      · rename_i group hinner
        obtain ⟨terms, last', ending⟩ := group
        -- The group itself is a shorter text with a level.
        have hrun := reads_of_value hinner
        cases ending with
        | returned reported =>
          rw [readLevel_of_groupReturned hgroup hrun.readLevel_eq] at h ⊢
          obtain rfl := Option.some.inj h
          exact .groupReturned rfl hgroup hrun rfl
        | complete =>
          simp only at hvalue
          split at hvalue
          · cases hvalue
          · rename_i hbare
            rw [Bool.not_eq_true] at hbare
            rw [readLevel_of_group hgroup hrun.readLevel_eq hbare] at h ⊢
            obtain ⟨more, hmore, rfl⟩ := Option.map_eq_some_iff.mp h
            exact .group rfl hgroup hrun hbare (reads_of_value hmore)
    · split at hvalue
      · cases hvalue
      · rename_i hopen
        split at hvalue
        · cases hvalue
        · rename_i htoken
          -- A token that is not empty is a `RETURN` or an atom.
          have hne : trim (splitToken 0 (termHead text).rest).1 ≠ [] := by
            rwa [List.isEmpty_iff] at htoken
          split at hvalue
          · rename_i hreturn
            rw [readLevel_of_return rfl hreturn] at h ⊢
            obtain rfl := Option.some.inj h
            exact .ret rfl rfl hreturn rfl
          · rename_i hreturn
            rw [Noted.value_bind] at hvalue
            split at hvalue
            · cases hvalue
            · rename_i atom hatom
              have hshorter := Nat.lt_of_lt_of_le (length_splitToken_lt htoken)
                (length_termHead_le text)
              have hread : Atom.read locals (trim (splitToken 0 (termHead text).rest).1) =
                  ⟨some atom, (Atom.read locals _).notes⟩ := congrArg (Noted.mk · _) hatom
              rw [readLevel_of_atom hopen rfl hne hreturn hread] at h ⊢
              obtain ⟨more, hmore, rfl⟩ := Option.map_eq_some_iff.mp h
              exact .atom rfl hopen rfl hne hreturn hread (reads_of_value hmore)
termination_by text.length
decreasing_by
  · exact hshorter.1
  · exact hshorter.2
  · exact hshorter

/-- A chain that is read is that of a run over its text. -/
theorem Chain.exists_reads {chain : Chain} (h : (Chain.read locals text).value = some chain) :
    ∃ result, Reads locals text 0 0 (trim text) result (Chain.read locals text).notes ∧
      chain = result.terms := by
  rw [Chain.read] at h ⊢
  split at h
  · cases h
  · rename_i hcount
    obtain ⟨result, hresult, rfl⟩ := Option.map_eq_some_iff.mp h
    refine ⟨result, ?_, rfl⟩
    rw [if_neg hcount]
    simpa using reads_of_value hresult

end Runs

end SignalScript
