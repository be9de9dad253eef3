import SignalScript.Proofs.Text.Trimming
import SignalScript.Statement.Reading

/-!
# The readers of a body, step by step

One equation for each way a reader of lines can go. What a reader returns carries a bound on the
lines it leaves, which depends on the lines it was given; the equations compare the parts without
that bound.

## Main definitions

* `Taken.parts`, `Block.parts` — what was taken, without the bound
* `LineForm` — what a line can begin with, as far as the readers care

## Main results

* `takeStatement_next`, `takeCondition_next`, `takeBlock_next` — a line is added to what is open
* `takeArm_parts`, `takeAlternative_joined`, `takeAlternative_behind` — how a chain of arms is read
-/

namespace SignalScript

/-- What was taken, without the bound on the rest. -/
def Taken.parts {α : Type} {room : Nat} (taken : Taken α room) :
    α × List Problem × List LogicalLine :=
  (taken.value, taken.problems, taken.rest)

/-- The block, without the bound on its lines. -/
def Block.parts {room : Nat} (block : Block room) :
    List LogicalLine × List Problem × List LogicalLine :=
  (block.inner, block.problems, block.rest)

theorem pushRest_of_isTight {text : Text} (h : text.IsTight) (number : Nat)
    (lines : List LogicalLine) : pushRest text number lines = ⟨text, number⟩ :: lines := by
  rw [pushRest, h.trim_eq]
  exact if_neg (by simp [h.ne_nil])

@[simp] theorem pushRest_nil (number : Nat) (lines : List LogicalLine) :
    pushRest [] number lines = lines := rfl

/-- The space that joined a text to the one before it is trimmed away. -/
theorem pushRest_space_cons {text : Text} (h : text.IsTight) (number : Nat)
    (lines : List LogicalLine) : pushRest (' ' :: text) number lines = ⟨text, number⟩ :: lines := by
  have htrim : Text.trim (' ' :: text) = text := (Text.trim_cons_of_blank rfl text).trans h.trim_eq
  rw [pushRest, htrim]
  exact if_neg (by simp [h.ne_nil])

/-- What a line begins with, as far as the readers care. -/
inductive LineForm (text : Text) : Prop
  | opening (rest : Text) (h : text = '{' :: rest)
  | closing (rest : Text) (h : text = '}' :: rest)
  | choice (hbrace : startsWithBrace text = false) (hif : isIf text = true)
    (helse : isElse text = false)
  | alternative (hbrace : startsWithBrace text = false) (hif : isIf text = false)
    (helse : isElse text = true)
  | sentence (h : isStructural text = false)

theorem isElse_of_isIf {text : Text} (h : isIf text = true) : isElse text = false := by
  obtain ⟨rest, rfl⟩ := List.isPrefixOf_iff_prefix.mp h
  rfl

theorem lineForm (text : Text) : LineForm text := by
  cases hbrace : startsWithBrace text with
  | true =>
    match text, hbrace with
    | c :: rest, hbrace =>
      simp only [startsWithBrace, Bool.or_eq_true, decide_eq_true_eq] at hbrace
      rcases hbrace with rfl | rfl
      · exact .opening rest rfl
      · exact .closing rest rfl
  | false =>
    cases hif : isIf text with
    | true => exact .choice hbrace hif (isElse_of_isIf hif)
    | false =>
      cases helse : isElse text with
      | true => exact .alternative hbrace hif helse
      | false => exact .sentence (by simp [isStructural, hbrace, hif, helse])

section Boundaries

variable {text before behind kept after : Text} {number start depth depth' : Nat}
  {next : LogicalLine} {lines rest : List LogicalLine}

theorem takeStatement_cut (h : Text.cut? ';' text = some (before, behind)) :
    (takeStatement text number lines).parts =
      (before ++ [';'], [], pushRest behind number lines) := by
  rw [takeStatement.eq_def]
  split
  · rename_i hcut
    cases h.symm.trans hcut
    rfl
  · rename_i hcut
    cases h.symm.trans hcut

theorem takeStatement_next (h : Text.cut? ';' text = none)
    (hnext : isStructural next.text = false) :
    (takeStatement text number (next :: rest)).parts =
      (takeStatement (text ++ ' ' :: next.text) number rest).parts := by
  rw [takeStatement.eq_def]
  split
  · rename_i hcut
    cases h.symm.trans hcut
  · simp only [hnext, Bool.false_eq_true, ↓reduceIte]
    rfl

theorem takeStatement_structural (h : Text.cut? ';' text = none)
    (hnext : isStructural next.text = true) :
    (takeStatement text number (next :: rest)).parts =
      (text, [⟨number, .missingSemicolon text⟩], next :: rest) := by
  rw [takeStatement.eq_def]
  split
  · rename_i hcut
    cases h.symm.trans hcut
  · simp only [hnext, ↓reduceIte]
    rfl

theorem takeStatement_end (h : Text.cut? ';' text = none) :
    (takeStatement text number []).parts = (text, [⟨number, .missingSemicolon text⟩], []) := by
  rw [takeStatement.eq_def]
  split
  · rename_i hcut
    cases h.symm.trans hcut
  · rfl

theorem takeCondition_cut (h : cutCondition? text = some (before, behind)) :
    (takeCondition text number lines).parts = (before, [], pushRest behind number lines) := by
  rw [takeCondition.eq_def]
  split
  · rename_i hcut
    cases h.symm.trans hcut
    rfl
  · rename_i hcut
    cases h.symm.trans hcut

theorem takeCondition_next (h : cutCondition? text = none)
    (hnext : startsWithBrace next.text = false) :
    (takeCondition text number (next :: rest)).parts =
      (takeCondition (text ++ ' ' :: next.text) number rest).parts := by
  rw [takeCondition.eq_def]
  split
  · rename_i hcut
    cases h.symm.trans hcut
  · simp only [hnext, Bool.false_eq_true, ↓reduceIte]
    rfl

theorem takeCondition_brace (h : cutCondition? text = none)
    (hnext : startsWithBrace next.text = true) :
    (takeCondition text number (next :: rest)).parts =
      (text, [⟨number, .openCondition text⟩], next :: rest) := by
  rw [takeCondition.eq_def]
  split
  · rename_i hcut
    cases h.symm.trans hcut
  · simp only [hnext, ↓reduceIte]
    rfl

theorem takeCondition_end (h : cutCondition? text = none) :
    (takeCondition text number []).parts = (text, [⟨number, .openCondition text⟩], []) := by
  rw [takeCondition.eq_def]
  split
  · rename_i hcut
    cases h.symm.trans hcut
  · rfl

theorem takeBlock_closed (h : scanBraces depth text = .closed kept after) :
    (takeBlock start depth text number lines).parts =
      (pushRest kept number [], [], pushRest after number lines) := by
  rw [takeBlock]
  split
  · rename_i hscan
    cases h.symm.trans hscan
    rfl
  · rename_i hscan
    cases h.symm.trans hscan

theorem takeBlock_next (h : scanBraces depth text = .inside kept depth') :
    (takeBlock start depth text number (next :: rest)).parts =
      let block := (takeBlock start depth' next.text next.number rest).parts
      (pushRest kept number block.1, block.2) := by
  rw [takeBlock]
  split
  · rename_i hscan
    cases h.symm.trans hscan
  · rename_i hscan
    cases h.symm.trans hscan
    rfl

theorem takeBlock_end (h : scanBraces depth text = .inside kept depth') :
    (takeBlock start depth text number []).parts =
      (pushRest kept number [], [⟨start, .openBlock⟩], []) := by
  rw [takeBlock]
  split
  · rename_i hscan
    cases h.symm.trans hscan
  · rename_i hscan
    cases h.symm.trans hscan
    rfl

end Boundaries

section Readers

variable {locals : List Text} {text : Text} {number owner : Nat} {first next : LogicalLine}
  {lines rest : List LogicalLine}

theorem takeAssignment_parts : (takeAssignment locals first lines).parts =
    let statement := takeStatement first.text first.number lines
    let assignment := Assignment.read locals first.number statement.value
    (assignment.value.toList.map .assign,
      statement.problems ++ assignment.notes.map (⟨first.number, ·⟩), statement.rest) :=
  rfl

theorem takeGuard_parts : (takeGuard locals first lines).parts =
    let head := takeCondition first.text first.number lines
    let condition := Condition.read locals head.value
    (condition.value, head.problems ++ condition.notes.map (⟨first.number, ·⟩), head.rest) :=
  rfl

@[simp] theorem readStatements_nil : readStatements locals [] = ⟨[], []⟩ := by rw [readStatements]

theorem readStatements_brace (h : first.text = '{' :: text) :
    readStatements locals (first :: lines) =
      let block := takeBlock first.number 0 text first.number lines
      let inner := readStatements locals block.inner
      let later := readStatements locals block.rest
      ⟨inner.value ++ later.value, block.problems ++ inner.notes ++ later.notes⟩ := by
  rw [readStatements.eq_def]
  simp only
  split
  · rename_i htext
    cases h.symm.trans htext
    rfl
  · rename_i htext
    cases h.symm.trans htext
  · rename_i hopen _
    exact absurd h (hopen text)

theorem readStatements_stray (h : first.text = '}' :: text) :
    readStatements locals (first :: lines) =
      let later := readStatements locals (pushRest text first.number lines)
      ⟨later.value, ⟨first.number, .strayBrace⟩ :: later.notes⟩ := by
  rw [readStatements.eq_def]
  simp only
  split
  · rename_i htext
    cases h.symm.trans htext
  · rename_i htext
    cases h.symm.trans htext
    rfl
  · rename_i hclose
    exact absurd h (hclose text)

theorem readStatements_if (hbrace : startsWithBrace first.text = false)
    (h : isIf first.text = true) :
    readStatements locals (first :: lines) =
      let arm := takeArm locals first lines
      let later := readStatements locals arm.rest
      ⟨.choose arm.value :: later.value, arm.problems ++ later.notes⟩ := by
  rw [readStatements]
  split
  · rename_i htext
    simp [htext, startsWithBrace] at hbrace
  · rename_i htext
    simp [htext, startsWithBrace] at hbrace
  · rw [if_pos h]

theorem readStatements_else (hbrace : startsWithBrace first.text = false)
    (hif : isIf first.text = false) (h : isElse first.text = true) :
    readStatements locals (first :: lines) =
      let later := readStatements locals lines
      ⟨later.value, ⟨first.number, .strayElse first.text⟩ :: later.notes⟩ := by
  rw [readStatements]
  split
  · rename_i htext
    simp [htext, startsWithBrace] at hbrace
  · rename_i htext
    simp [htext, startsWithBrace] at hbrace
  · rw [if_neg (by simp [hif]), if_pos h]

theorem readStatements_statement (h : isStructural first.text = false) :
    readStatements locals (first :: lines) =
      let statement := takeAssignment locals first lines
      let later := readStatements locals statement.rest
      ⟨statement.value ++ later.value, statement.problems ++ later.notes⟩ := by
  simp only [isStructural, Bool.or_eq_false_iff] at h
  rw [readStatements]
  split
  · rename_i htext
    simp [htext, startsWithBrace] at h
  · rename_i htext
    simp [htext, startsWithBrace] at h
  · rw [if_neg (by simp [h]), if_neg (by simp [h])]

@[simp] theorem takeBody_nil :
    (takeBody locals owner []).parts = ([], [⟨owner, .missingBody⟩], []) := by
  rw [takeBody]
  rfl

/-- A brace that closes and an `ELSE` are left to the readers around a body. -/
theorem takeBody_missing (hopen : ∀ text, first.text ≠ '{' :: text)
    (h : (startsWithBrace first.text || isElse first.text) = true) :
    (takeBody locals owner (first :: lines)).parts =
      ([], [⟨owner, .missingBody⟩], first :: lines) := by
  rw [takeBody]
  split
  · rename_i htext
    exact absurd htext (hopen _)
  · simp only [h, ↓reduceIte]
    rfl

theorem takeBody_brace (h : first.text = '{' :: text) :
    (takeBody locals owner (first :: lines)).parts =
      let block := takeBlock first.number 0 text first.number lines
      let inner := readStatements locals block.inner
      (inner.value, block.problems ++ inner.notes, block.rest) := by
  rw [takeBody.eq_def]
  simp only
  split
  · rename_i htext
    cases h.symm.trans htext
    rfl
  · rename_i hopen
    exact absurd h (hopen text)

theorem takeBody_if (hbrace : startsWithBrace first.text = false)
    (helse : isElse first.text = false) (h : isIf first.text = true) :
    (takeBody locals owner (first :: lines)).parts =
      let arm := takeArm locals first lines
      ([.choose arm.value], arm.problems, arm.rest) := by
  rw [takeBody]
  split
  · rename_i htext
    simp [htext, startsWithBrace] at hbrace
  · simp only [hbrace, helse, h, Bool.or_self, Bool.false_eq_true, ↓reduceIte]
    rfl

theorem takeBody_statement (h : isStructural first.text = false) :
    (takeBody locals owner (first :: lines)).parts = (takeAssignment locals first lines).parts := by
  simp only [isStructural, Bool.or_eq_false_iff] at h
  rw [takeBody]
  split
  · rename_i htext
    simp [htext, startsWithBrace] at h
  · simp only [h, Bool.or_self, Bool.false_eq_true, ↓reduceIte]
    rfl

theorem takeArm_parts : (takeArm locals first lines).parts =
    let condition := takeGuard locals first lines
    let body := takeBody locals first.number condition.rest
    let otherwise := takeAlternative locals body.rest
    (.mk condition.value body.value otherwise.value,
      condition.problems ++ body.problems ++ otherwise.problems, otherwise.rest) := by
  rw [takeArm]
  rfl

@[simp] theorem takeAlternative_nil : (takeAlternative locals []).parts = (.done, [], []) := by
  rw [takeAlternative]
  rfl

theorem afterElse?_eq_none (h : "ELSE ".toList.isPrefixOf text = false) :
    afterElse? text = none := by
  rw [afterElse?, Option.map_eq_none_iff]
  cases hdrop : Text.dropStem? "ELSE ".toList text with
  | none => rfl
  | some rest =>
    have hstem := List.isPrefixOf_iff_prefix.mpr ⟨rest, (Text.dropStem?_eq_some hdrop).symm⟩
    rw [h] at hstem
    exact absurd hstem Bool.false_ne_true

theorem takeAlternative_done (h : isElse first.text = false) :
    (takeAlternative locals (first :: lines)).parts = (.done, [], first :: lines) := by
  simp only [isElse, Bool.or_eq_false_iff, decide_eq_false_iff_not] at h
  obtain ⟨⟨hself, hspaced⟩, hjoined⟩ := h
  rw [takeAlternative.eq_def]
  simp only [if_neg hself, hjoined, Bool.false_eq_true, ↓reduceIte]
  split
  · rename_i hafter
    cases (afterElse?_eq_none hspaced).symm.trans hafter
  · rfl

/-- An `IF` on the line behind `ELSE` is a further arm. -/
theorem takeAlternative_stacked (h : first.text = "ELSE".toList) (hnext : isIf next.text = true) :
    (takeAlternative locals (first :: next :: rest)).parts =
      let arm := takeArm locals next rest
      (.arm arm.value, arm.problems, arm.rest) := by
  rw [takeAlternative.eq_def]
  simp only [if_pos h, if_pos hnext]
  rfl

theorem takeAlternative_joined (h : "ELSEIF".toList.isPrefixOf first.text = true) :
    (takeAlternative locals (first :: lines)).parts =
      let arm := takeArm locals first lines
      (.arm arm.value, arm.problems, arm.rest) := by
  have hself : first.text ≠ "ELSE".toList := by
    intro hself
    rw [hself] at h
    exact absurd h (by decide)
  rw [takeAlternative.eq_def]
  simp only [if_neg hself, if_pos h]
  rfl

/-- What stands behind `ELSE` on its line is put back and read. -/
theorem takeAlternative_after (h : afterElse? first.text = some text) :
    (takeAlternative locals (first :: lines)).parts =
      if isIf text then
        let arm := takeArm locals ⟨text, first.number⟩ lines
        (.arm arm.value, arm.problems, arm.rest)
      else
        let body := takeBody locals first.number (pushRest text first.number lines)
        (.always body.value, body.problems, body.rest) := by
  -- `ELSE` alone and `ELSEIF` are looked for first.
  obtain ⟨behind, hstem, -⟩ := Option.map_eq_some_iff.mp h
  have hstem := Text.dropStem?_eq_some hstem
  have hself : first.text ≠ "ELSE".toList := by
    intro hself
    have hlength := congrArg List.length (hself.symm.trans hstem)
    simp at hlength
  have hjoined : "ELSEIF".toList.isPrefixOf first.text = false := by rw [hstem]; rfl
  rw [takeAlternative.eq_def]
  simp only [if_neg hself, hjoined, Bool.false_eq_true, ↓reduceIte]
  split
  · rename_i hfound
    cases h.symm.trans hfound
    split <;> rfl
  · rename_i hfound
    cases h.symm.trans hfound

/-- What stands behind `ELSE` on its line is read as if it stood alone. -/
theorem takeAlternative_behind (h : first.text = "ELSE ".toList ++ text) (htext : text.IsTight) :
    (takeAlternative locals (first :: lines)).parts =
      if isIf text then
        let arm := takeArm locals ⟨text, first.number⟩ lines
        (.arm arm.value, arm.problems, arm.rest)
      else
        let body := takeBody locals first.number (⟨text, first.number⟩ :: lines)
        (.always body.value, body.problems, body.rest) := by
  have hafter : afterElse? first.text = some text := by
    rw [h]
    exact congrArg some htext.trimStart_eq
  rw [takeAlternative_after hafter, pushRest_of_isTight htext]

/-- Every line that continues the arms does so in one of three ways. -/
theorem else_cases (h : isElse text = true) :
    text = "ELSE".toList ∨ "ELSEIF".toList.isPrefixOf text = true ∨
      ∃ rest, afterElse? text = some rest := by
  simp only [isElse, Bool.or_eq_true, decide_eq_true_eq] at h
  rcases h with (h | h) | h
  · exact .inl h
  · obtain ⟨rest, rfl⟩ := List.isPrefixOf_iff_prefix.mp h
    exact .inr (.inr ⟨Text.trimStart rest, rfl⟩)
  · exact .inr (.inl h)

theorem takeAlternative_always_end (h : first.text = "ELSE".toList) :
    (takeAlternative locals [first]).parts =
      let body := takeBody locals first.number []
      (.always body.value, body.problems, body.rest) := by
  rw [takeAlternative.eq_def]
  simp only [if_pos h]
  rfl

theorem takeAlternative_always_next (h : first.text = "ELSE".toList)
    (hnext : isIf next.text = false) :
    (takeAlternative locals (first :: next :: rest)).parts =
      let body := takeBody locals first.number (next :: rest)
      (.always body.value, body.problems, body.rest) := by
  rw [takeAlternative.eq_def]
  simp only [if_pos h, hnext, Bool.false_eq_true, ↓reduceIte]
  rfl

end Readers

end SignalScript
